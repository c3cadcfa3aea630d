import LoanClosing.Proofs.Condition.Reader
import Mathlib.Data.List.DropRight

/-!
# What is read is what is written

Reading a condition character by character, with the first alternative that stands at the front and
with signs left behind where nothing goes on, comes to the same as cutting the text into tokens and
deriving these in the grammar: a text is read as a condition exactly when its tokens write it.
-/

namespace LoanClosing.Condition

/-! ## Tokens from the front of a text -/

/-- A text begins with the tokens, with gaps anywhere, and the rest is behind them and the gap that
follows. -/
inductive Takes : List Token → List Char → List Char → Prop
  | nil (cs : List Char) : Takes [] cs (skipGap cs)
  | cons {token : Token} {tokens : List Token} {cs mid rest : List Char}
      (h : Token.first? (skipGap cs) = some (token, mid)) (ht : Takes tokens mid rest) :
      Takes (token :: tokens) cs rest

/-- The first token of a text behind a gap. -/
def peek (cs : List Char) : Option Token := (Token.first? (skipGap cs)).map Prod.fst

section

variable {token : Token} {tokens front back : List Token} {cs mid rest : List Char}

theorem skipGap_skipGap (cs : List Char) : skipGap (skipGap cs) = skipGap cs :=
  List.dropWhile_idempotent isGap cs

theorem takes_skipGap_iff : Takes tokens (skipGap cs) rest ↔ Takes tokens cs rest := by
  constructor
  · intro h
    cases h with
    | nil =>
      rw [skipGap_skipGap]
      exact .nil cs
    | cons h ht => exact .cons (by rwa [skipGap_skipGap] at h) ht
  · intro h
    cases h with
    | nil =>
      have hnil := Takes.nil (skipGap cs)
      rwa [skipGap_skipGap] at hnil
    | cons h ht => exact .cons (by rwa [skipGap_skipGap]) ht

theorem takes_singleton_iff :
    Takes [token] cs rest ↔
      ∃ mid, Token.first? (skipGap cs) = some (token, mid) ∧ skipGap mid = rest := by
  constructor
  · rintro (_ | ⟨h, ⟨mid⟩⟩)
    exact ⟨_, h, rfl⟩
  · rintro ⟨mid, h, rfl⟩
    exact .cons h (.nil mid)

namespace Takes

/-- No gap is left in front of the rest. -/
theorem skipGap_eq (h : Takes tokens cs rest) : skipGap rest = rest := by
  induction h with
  | nil cs => exact skipGap_skipGap cs
  | cons _ _ ih => exact ih

theorem append (hf : Takes front cs mid) (hb : Takes back mid rest) :
    Takes (front ++ back) cs rest := by
  induction hf with
  | nil cs => exact takes_skipGap_iff.1 hb
  | cons h _ ih => exact .cons h (ih hb)

theorem exists_of_append (h : Takes (front ++ back) cs rest) :
    ∃ mid, Takes front cs mid ∧ Takes back mid rest := by
  induction front generalizing cs with
  | nil => exact ⟨_, .nil cs, takes_skipGap_iff.2 h⟩
  | cons token front ih =>
    obtain _ | ⟨h, ht⟩ := h
    obtain ⟨mid, hf, hb⟩ := ih ht
    exact ⟨mid, .cons h hf, hb⟩

/-- The first of several tokens, and the others behind it. -/
theorem exists_of_cons (h : Takes (token :: tokens) cs rest) :
    ∃ mid, Takes [token] cs mid ∧ Takes tokens mid rest :=
  exists_of_append (show Takes ([token] ++ tokens) cs rest from h)

theorem peek_eq (h : Takes (token :: tokens) cs rest) : peek cs = some token := by
  obtain _ | ⟨h, -⟩ := h
  rw [peek, h]
  rfl

end Takes

/-- In front of a token the scanner takes that token and goes on behind it. -/
theorem scan?_of_first? (h : Token.first? (skipGap cs) = some (token, rest)) :
    Token.scan? cs = (Token.scan? rest).map (token :: ·) := by
  rw [← scan?_skipGap]
  cases hc : skipGap cs with
  | nil =>
    rw [hc] at h
    cases h
  | cons c more =>
    have hg : isGap c = false := by
      have hnot := List.head?_dropWhile_not isGap cs
      rw [← skipGap, hc] at hnot
      exact hnot
    rw [hc, Token.first?, Option.map_eq_some_iff] at h
    obtain ⟨⟨token', taken⟩, hn, he⟩ := h
    obtain ⟨rfl, rfl⟩ := Prod.mk.inj he
    rw [Token.scan?, if_neg (by simp [hg]), hn]

/-- The tokens of a text are taken from it until nothing is left. -/
theorem scan?_eq_some_iff : Token.scan? cs = some tokens ↔ Takes tokens cs [] := by
  constructor
  · intro h
    fun_induction Token.scan? cs generalizing tokens with
    | case1 =>
      obtain rfl := Option.some.inj h
      exact .nil []
    | case2 c rest hg ih =>
      have hskip : skipGap (c :: rest) = skipGap rest := List.dropWhile_cons_of_pos hg
      rw [← takes_skipGap_iff, hskip, takes_skipGap_iff]
      exact ih h
    | case3 c rest hg hn => cases h
    | case4 c rest hg token taken hn ih =>
      obtain ⟨others, ho, rfl⟩ := Option.map_eq_some_iff.1 h
      have hskip : skipGap (c :: rest) = c :: rest := List.dropWhile_cons_of_neg hg
      have hf : Token.first? (skipGap (c :: rest)) = some (token, rest.drop taken) := by
        rw [hskip, Token.first?, hn]
        rfl
      exact .cons hf (ih ho)
  · intro h
    generalize hr : [] = rest at h
    induction h with
    | nil cs => rw [← scan?_skipGap, ← hr, Token.scan?]
    | cons h _ ih => rw [scan?_of_first? h, ih hr, Option.map_some]

end

/-! ## Signs between gaps -/

section

variable {α β : Type} {a : α} {b : β} {token : Token} {read : Reader β} {cs mid rest : List Char}

/-- Between gaps a reader reads a single token if it does without them. -/
theorem reads_spaced_iff (h : ∀ cs rest, Reads (read cs) b rest ↔
    Token.first? cs = some (token, rest)) :
    Reads (spaced read cs) b rest ↔ Takes [token] cs rest := by
  rw [spaced, reads_betweenGaps_iff, takes_singleton_iff]
  exact exists_congr fun mid ↦ and_congr_left' (h _ _)

theorem reads_orSign : Reads (spaced orSign? cs) () rest ↔ Takes [.or] cs rest :=
  reads_spaced_iff fun _ _ ↦ reads_orSign?_iff

theorem reads_andSign : Reads (spaced andSign? cs) () rest ↔ Takes [.and] cs rest :=
  reads_spaced_iff fun _ _ ↦ reads_andSign?_iff

theorem reads_notSign : Reads (spaced notSign? cs) () rest ↔ Takes [.not] cs rest :=
  reads_spaced_iff fun _ _ ↦ reads_notSign?_iff

theorem reads_compareSign {comparison : Comparison} :
    Reads (spaced compareSign? cs) comparison rest ↔ Takes [.compare comparison] cs rest :=
  reads_spaced_iff fun _ _ ↦ reads_compareSign?_iff

/-- What is read first, and behind it what is read then. -/
theorem reads_pair {first : Option (β × Shorter cs)}
    (second : (rest : List Char) → Option (α × Shorter rest)) (hf : Reads first b mid)
    (hs : Reads (second mid) a rest) : Reads (pair first fun rest _ ↦ second rest) (b, a) rest := by
  obtain ⟨h, hf⟩ := hf
  exact reads_pair_iff.2 ⟨mid, h, hf, hs⟩

theorem exists_of_reads_pair {first : Option (β × Shorter cs)}
    {second : (rest : List Char) → Option (α × Shorter rest)}
    (h : Reads (pair first fun rest _ ↦ second rest) (b, a) rest) :
    ∃ mid, Reads first b mid ∧ mid.length < cs.length ∧ Reads (second mid) a rest := by
  obtain ⟨mid, hm, hf, hs⟩ := reads_pair_iff.1 h
  exact ⟨mid, ⟨hm, hf⟩, hm, hs⟩

/-- What is read first and goes on behind that. -/
theorem reads_chain_iff {first : Option (β × Shorter cs)}
    {more : β → (rest : List Char) → β × NoLonger rest} :
    Reads (do
      let (left, ⟨mid, h⟩) ← first
      let (b, ⟨rest, h'⟩) := more left mid
      some (b, (⟨rest, Nat.lt_of_le_of_lt h' h⟩ : Shorter cs))) b rest ↔
      ∃ left mid, ∃ h : mid.length < cs.length, first = some (left, ⟨mid, h⟩) ∧
        Reads (some (more left mid)) b rest := by
  constructor
  · rintro ⟨hlt, h⟩
    simp only [Option.bind_eq_bind, Option.bind_eq_some_iff] at h
    obtain ⟨⟨left, mid, hm⟩, hfirst, h⟩ := h
    refine ⟨left, mid, hm, hfirst, ?_⟩
    cases hc : more left mid with
    | mk b' rest' =>
      simp only [hc] at h
      obtain ⟨rfl, rfl⟩ : b' = b ∧ rest'.1 = rest := by simpa using h
      exact ⟨rest'.2, rfl⟩
  · rintro ⟨left, mid, hm, rfl, hle, hmore⟩
    simp only [Option.bind_eq_bind, Option.bind_some, Option.some.inj hmore]
    exact ⟨_, rfl⟩

theorem pair_eq_none {first : Option (β × Shorter cs)}
    {second : (rest : List Char) → rest.length < cs.length → Option (α × Shorter rest)}
    (h : ∀ b mid, ¬ Reads first b mid) : pair first second = none := by
  rw [Reads.eq_none_iff.2 h]
  rfl

end

/-! ## What the parser does at each level -/

section

variable {e left right : Expr} {token : Token} {cs inner mid more rest : List Char}

/-- The text does not go on with a comparison sign. -/
def EndsComparison (cs : List Char) : Prop := ∀ comparison, peek cs ≠ some (.compare comparison)

theorem reads_disjunction?_iff : Reads (disjunction? cs) e rest ↔
    ∃ left mid, ∃ h : mid.length < cs.length, conjunction? cs = some (left, ⟨mid, h⟩) ∧
      Reads (some (moreDisjuncts left mid)) e rest := by
  rw [disjunction?]
  exact reads_chain_iff

theorem reads_conjunction?_iff : Reads (conjunction? cs) e rest ↔
    ∃ left mid, ∃ h : mid.length < cs.length, negation? cs = some (left, ⟨mid, h⟩) ∧
      Reads (some (moreConjuncts left mid)) e rest := by
  rw [conjunction?]
  exact reads_chain_iff

theorem operand?_leaf (h : Takes [token] cs rest) (hl : token.leaf? = some e) :
    Reads (operand? cs) e rest := by
  obtain ⟨mid, hf, rfl⟩ := takes_singleton_iff.1 h
  have hatom : Reads (atom? (skipGap cs)) e mid := reads_atom?_iff.2 ⟨token, hf, hl⟩
  have hparen : parenthesized? (skipGap cs) = none := by
    rw [parenthesized?]
    intro inner hc
    rw [first?_eq_some_openParen_iff.2 hc] at hf
    obtain ⟨rfl, -⟩ := Prod.mk.inj (Option.some.inj hf)
    cases hl
  rw [operand?, hparen]
  exact reads_betweenGaps_iff.2 ⟨mid, hatom, rfl⟩

theorem operand?_parens (ho : Token.first? (skipGap cs) = some (.openParen, inner))
    (h : Reads (disjunction? inner) e (')' :: mid)) : Reads (operand? cs) e (skipGap mid) := by
  have hparen : Reads (parenthesized? (skipGap cs)) e mid := by
    obtain ⟨hlt, h⟩ := h
    obtain ⟨hlt', hp⟩ : Reads (pair (disjunction? inner) fun rest _ ↦ char? ')' rest)
        (e, ')') mid := reads_pair_iff.2 ⟨_, hlt, h, reads_char?_iff.2 ⟨rfl, rfl⟩⟩
    rw [first?_eq_some_openParen_iff.1 ho, parenthesized?, hp]
    exact ⟨_, rfl⟩
  obtain ⟨hlt', hp⟩ := hparen
  rw [operand?, hp]
  exact reads_betweenGaps_iff.2 ⟨mid, ⟨hlt', rfl⟩, rfl⟩

theorem comparison?_operand (h : Reads (operand? cs) e rest) (hr : EndsComparison rest) :
    Reads (comparison? cs) e rest := by
  obtain ⟨hlt, h⟩ := h
  have hnone : ∀ comparison mid, ¬ Reads (spaced compareSign? rest) comparison mid :=
    fun comparison mid hs ↦ hr comparison (reads_compareSign.1 hs).peek_eq
  rw [comparison?, h]
  simp only [Option.bind_eq_bind, Option.bind_some, pair_eq_none hnone]
  exact ⟨_, rfl⟩

theorem comparison?_compare {comparison : Comparison} (hl : Reads (operand? cs) left mid)
    (hs : Takes [.compare comparison] mid more) (hr : Reads (operand? more) right rest) :
    Reads (comparison? cs) (.compare left comparison right) rest := by
  obtain ⟨hlt, hl⟩ := hl
  obtain ⟨hlt', hp⟩ := reads_pair operand? (reads_compareSign.2 hs) hr
  rw [comparison?, hl]
  simp only [Option.bind_eq_bind, Option.bind_some, hp]
  exact ⟨_, rfl⟩

theorem negation?_comparison (h : Reads (comparison? cs) e rest) (hn : peek cs ≠ some .not) :
    Reads (negation? cs) e rest := by
  have hnone : ∀ u mid, ¬ Reads (spaced notSign? cs) u mid :=
    fun _ mid hs ↦ hn (reads_notSign.1 hs).peek_eq
  rw [negation?, pair_eq_none hnone]
  exact h

theorem negation?_not (hs : Takes [.not] cs mid) (h : Reads (negation? mid) e rest) :
    Reads (negation? cs) (.not e) rest := by
  obtain ⟨hlt, hp⟩ := reads_pair negation? (reads_notSign.2 hs) h
  rw [negation?, hp]
  exact ⟨_, rfl⟩

theorem moreConjuncts_and (hs : Takes [.and] cs mid) (h : Reads (negation? mid) right more)
    (hm : Reads (some (moreConjuncts (.and left right) more)) e rest) :
    Reads (some (moreConjuncts left cs)) e rest := by
  obtain ⟨hlt, hp⟩ := reads_pair negation? (reads_andSign.2 hs) h
  obtain ⟨hle, hm⟩ := hm
  rw [moreConjuncts, hp]
  simp only [Option.some.inj hm]
  exact ⟨_, rfl⟩

theorem moreConjuncts_of_ne (h : peek cs ≠ some .and) :
    Reads (some (moreConjuncts e cs)) e cs := by
  have hnone : ∀ u mid, ¬ Reads (spaced andSign? cs) u mid :=
    fun _ mid hs ↦ h (reads_andSign.1 hs).peek_eq
  rw [moreConjuncts, pair_eq_none hnone]
  exact ⟨_, rfl⟩

theorem moreDisjuncts_or (hs : Takes [.or] cs mid) (h : Reads (conjunction? mid) right more)
    (hm : Reads (some (moreDisjuncts (.or left right) more)) e rest) :
    Reads (some (moreDisjuncts left cs)) e rest := by
  obtain ⟨hlt, hp⟩ := reads_pair conjunction? (reads_orSign.2 hs) h
  obtain ⟨hle, hm⟩ := hm
  rw [moreDisjuncts, hp]
  simp only [Option.some.inj hm]
  exact ⟨_, rfl⟩

theorem moreDisjuncts_of_ne (h : peek cs ≠ some .or) :
    Reads (some (moreDisjuncts e cs)) e cs := by
  have hnone : ∀ u mid, ¬ Reads (spaced orSign? cs) u mid :=
    fun _ mid hs ↦ h (reads_orSign.1 hs).peek_eq
  rw [moreDisjuncts, pair_eq_none hnone]
  exact ⟨_, rfl⟩

end

/-! ## What is written is read -/

/-- A text that begins with the tokens is read as the condition at the level, whatever stands behind
them that the level leaves alone. In a chain the tokens are the left part of what is read. -/
def Level.Recovers (level : Level) (e : Expr) (tokens : List Token) : Prop :=
  match level with
  | .operand => ∀ cs rest, Takes tokens cs rest → Reads (operand? cs) e rest
  | .comparison => ∀ cs rest, Takes tokens cs rest → EndsComparison rest →
      Reads (comparison? cs) e rest
  | .negation => ∀ cs rest, Takes tokens cs rest → EndsComparison rest →
      Reads (negation? cs) e rest
  | .conjunction => ∀ cs mid chain rest, Takes tokens cs mid → EndsComparison mid →
      Reads (some (moreConjuncts e mid)) chain rest → Reads (conjunction? cs) chain rest
  | .disjunction => ∀ cs mid chain rest, Takes tokens cs mid → EndsComparison mid →
      peek mid ≠ some .and → Reads (some (moreDisjuncts e mid)) chain rest →
        Reads (disjunction? cs) chain rest

namespace Writes

variable {level : Level} {e : Expr} {tokens : List Token}

/-- An operand or a comparison does not begin with a negation. -/
theorem peek_ne_not (h : Writes level e tokens) (hl : level = .operand ∨ level = .comparison)
    {cs rest : List Char} (ht : Takes tokens cs rest) : peek cs ≠ some .not := by
  induction h generalizing cs rest with
  | literal | path | parens => rw [ht.peek_eq]; exact nofun
  | operand _ ih => exact ih (.inl rfl) ht
  | compare comparison _ _ ihl =>
    obtain ⟨mid, hlefts, -⟩ := ht.exists_of_append
    exact ihl (.inl rfl) hlefts
  | _ => simp at hl

/-- What writes a condition at a level is read as that condition at that level. -/
theorem recovers (h : Writes level e tokens) : level.Recovers e tokens := by
  have ends_of_peek : ∀ {cs token}, peek cs = some token →
      (∀ comparison, token ≠ .compare comparison) → EndsComparison cs :=
    fun hp hn comparison he ↦ hn comparison (Option.some.inj (hp.symm.trans he))
  induction h with
  | literal value => exact fun cs rest ht ↦ operand?_leaf ht rfl
  | path segments => exact fun cs rest ht ↦ operand?_leaf ht rfl
  | parens _ ih =>
    rintro cs rest (_ | ⟨ho, ht⟩)
    obtain ⟨mid, hinner, hclose⟩ := ht.exists_of_append
    obtain ⟨more, hf, rfl⟩ := takes_singleton_iff.1 hclose
    rw [hinner.skipGap_eq, first?_eq_some_closeParen_iff] at hf
    subst hf
    have hp := hclose.peek_eq
    have hm := ih _ _ _ _ hinner (ends_of_peek hp nofun) (by rw [hp]; exact nofun)
      (moreDisjuncts_of_ne (by rw [hp]; exact nofun))
    exact operand?_parens ho hm
  | operand _ ih => exact fun cs rest ht hr ↦ comparison?_operand (ih cs rest ht) hr
  | compare comparison _ _ ihl ihr =>
    intro cs rest ht _
    obtain ⟨mid, hlefts, ht⟩ := ht.exists_of_append
    obtain ⟨more, hs, hrights⟩ := ht.exists_of_cons
    exact comparison?_compare (ihl _ _ hlefts) hs (ihr _ _ hrights)
  | comparison h ih =>
    exact fun cs rest ht hr ↦ negation?_comparison (ih cs rest ht hr) (h.peek_ne_not (.inr rfl) ht)
  | not _ ih =>
    intro cs rest ht hr
    obtain ⟨mid, hs, ht⟩ := ht.exists_of_cons
    exact negation?_not hs (ih mid rest ht hr)
  | negation _ ih =>
    intro cs mid chain rest ht hr hm
    obtain ⟨hlt, hn⟩ := ih cs mid ht hr
    exact reads_conjunction?_iff.2 ⟨_, mid, hlt, hn, hm⟩
  | and _ _ ihl ihr =>
    intro cs mid chain rest ht hr hm
    obtain ⟨between, hlefts, ht⟩ := ht.exists_of_append
    obtain ⟨more, hs, hrights⟩ := ht.exists_of_cons
    exact ihl _ _ _ _ hlefts (ends_of_peek hs.peek_eq nofun)
      (moreConjuncts_and hs (ihr _ _ hrights hr) hm)
  | conjunction _ ih =>
    intro cs mid chain rest ht hr ha hm
    obtain ⟨hlt, hc⟩ := ih cs mid _ _ ht hr (moreConjuncts_of_ne ha)
    exact reads_disjunction?_iff.2 ⟨_, mid, hlt, hc, hm⟩
  | or _ _ ihl ihr =>
    intro cs mid chain rest ht hr ha hm
    obtain ⟨between, hlefts, ht⟩ := ht.exists_of_append
    obtain ⟨more, hs, hrights⟩ := ht.exists_of_cons
    have hright := ihr _ _ _ _ hrights hr (moreConjuncts_of_ne ha)
    have hp := hs.peek_eq
    exact ihl _ _ _ _ hlefts (ends_of_peek hp nofun) (by rw [hp]; exact nofun)
      (moreDisjuncts_or hs hright hm)

end Writes

/-! ## What is read is written -/

section

variable {e : Expr} {cs rest : List Char}

theorem exists_of_comparison? (h : Reads (comparison? cs) e rest) :
    Reads (operand? cs) e rest ∨ ∃ left comparison right mid more,
      e = .compare left comparison right ∧ Reads (operand? cs) left mid ∧
        mid.length < cs.length ∧ Takes [.compare comparison] mid more ∧
        more.length < mid.length ∧ Reads (operand? more) right rest := by
  obtain ⟨hlt, h⟩ := h
  rw [comparison?] at h
  simp only [Option.bind_eq_bind, Option.bind_eq_some_iff] at h
  obtain ⟨⟨left, mid, hm⟩, hleft, h⟩ := h
  split at h
  · next comparison right rest' hr hp =>
    obtain ⟨rfl, rfl⟩ : .compare left comparison right = e ∧ rest' = rest := by simpa using h
    obtain ⟨more, hs, hmore, hright⟩ := exists_of_reads_pair ⟨hr, hp⟩
    exact .inr ⟨left, comparison, right, mid, more, rfl, ⟨hm, hleft⟩, hm,
      reads_compareSign.1 hs, hmore, hright⟩
  · obtain ⟨rfl, rfl⟩ : left = e ∧ mid = rest := by simpa using h
    exact .inl ⟨hm, hleft⟩

theorem exists_of_operand? (h : Reads (operand? cs) e rest) :
    (∃ token, Takes [token] cs rest ∧ token.leaf? = some e) ∨
      ∃ mid, Reads (parenthesized? (skipGap cs)) e mid ∧ skipGap mid = rest := by
  rw [operand?, reads_betweenGaps_iff] at h
  obtain ⟨mid, h, rfl⟩ := h
  cases hp : parenthesized? (skipGap cs) with
  | some p =>
    rw [hp] at h
    exact .inr ⟨mid, h, rfl⟩
  | none =>
    rw [hp] at h
    obtain ⟨token, hf, hl⟩ := reads_atom?_iff.1 h
    exact .inl ⟨token, takes_singleton_iff.2 ⟨mid, hf, rfl⟩, hl⟩

theorem exists_of_parenthesized? (h : Reads (parenthesized? ('(' :: cs)) e rest) :
    Reads (disjunction? cs) e (')' :: rest) := by
  obtain ⟨hlt, h⟩ := h
  rw [parenthesized?] at h
  simp only [Option.bind_eq_bind, Option.bind_eq_some_iff] at h
  obtain ⟨⟨⟨e', c⟩, more, hm⟩, hp, h⟩ := h
  obtain ⟨rfl, rfl⟩ : e' = e ∧ more = rest := by simpa using h
  obtain ⟨mid, hlt, hinner, hc⟩ := reads_pair_iff.1 ⟨hm, hp⟩
  obtain ⟨-, rfl⟩ := reads_char?_iff.1 hc
  exact ⟨hlt, hinner⟩

/-- The text begins with tokens that write the condition at the level, and the rest is left. -/
def Level.Derives (level : Level) (cs : List Char) (e : Expr) (rest : List Char) : Prop :=
  ∃ used, Takes used cs rest ∧ Writes level e used

theorem Level.Derives.imp {level level' : Level} (h : level.Derives cs e rest)
    (hw : ∀ used, Writes level e used → Writes level' e used) : level'.Derives cs e rest := by
  obtain ⟨used, ht, hu⟩ := h
  exact ⟨used, ht, hw used hu⟩

/-- What one part, a sign and another part write. -/
theorem Level.Derives.snoc {level level' level'' : Level} {left right joined : Expr} {sign : Token}
    {mid more : List Char} (hl : level.Derives cs left mid) (hs : Takes [sign] mid more)
    (hr : level'.Derives more right rest) (hw : ∀ lefts rights, Writes level left lefts →
      Writes level' right rights → Writes level'' joined (lefts ++ sign :: rights)) :
    level''.Derives cs joined rest := by
  obtain ⟨lefts, htl, hul⟩ := hl
  obtain ⟨rights, htr, hur⟩ := hr
  exact ⟨lefts ++ sign :: rights, htl.append (hs.append htr), hw lefts rights hul hur⟩

/-- A literal or a path is written by itself. -/
theorem Writes.of_leaf? {token : Token} (h : token.leaf? = some e) : Writes .operand e [token] := by
  cases token with
  | literal value =>
    obtain rfl := Option.some.inj h
    exact .literal value
  | path segments =>
    obtain rfl := Option.some.inj h
    exact .path segments
  | _ => cases h

/-- A rule reads what the grammar has at its level; a chain goes on with what it has so far. -/
theorem derives_of_reads :
    (∀ cs e rest, Reads (disjunction? cs) e rest → Level.disjunction.Derives cs e rest) ∧
    (∀ left cs e rest, Reads (some (moreDisjuncts left cs)) e rest →
      ∀ whole, Level.disjunction.Derives whole left cs → Level.disjunction.Derives whole e rest) ∧
    (∀ cs e rest, Reads (conjunction? cs) e rest → Level.conjunction.Derives cs e rest) ∧
    (∀ left cs e rest, Reads (some (moreConjuncts left cs)) e rest →
      ∀ whole, Level.conjunction.Derives whole left cs → Level.conjunction.Derives whole e rest) ∧
    (∀ cs e rest, Reads (negation? cs) e rest → Level.negation.Derives cs e rest) ∧
    (∀ cs e rest, Reads (comparison? cs) e rest → Level.comparison.Derives cs e rest) ∧
    (∀ cs e rest, Reads (operand? cs) e rest → Level.operand.Derives cs e rest) ∧
    ∀ cs e rest, Reads (parenthesized? cs) e rest →
      ∃ inner, cs = '(' :: inner ∧ Level.disjunction.Derives inner e (')' :: rest) := by
  apply disjunction?.mutual_induct
  case case1 => -- a disjunction
    intro cs ihFirst ihMore e rest h
    obtain ⟨left, mid, hlt, hl, hm⟩ := reads_disjunction?_iff.1 h
    exact ihMore left mid hlt e rest hm cs
      ((ihFirst left mid ⟨hlt, hl⟩).imp fun _ hu ↦ hu.conjunction)
  case case2 => -- no more disjuncts
    intro left cs hn _ e rest h whole hw
    rw [moreDisjuncts, hn] at h
    obtain ⟨rfl, rfl⟩ := reads_some_iff.1 h
    exact hw
  case case3 => -- one more disjunct
    intro left cs _ right mid hlt hp chain rest' hle hmore ihRight ihMore e rest h whole hw
    obtain ⟨between, hs, hm, hright⟩ := exists_of_reads_pair ⟨hlt, hp⟩
    rw [moreDisjuncts, hp] at h
    simp only [hmore] at h
    rw [hmore] at ihMore
    obtain ⟨rfl, rfl⟩ := reads_some_iff.1 h
    apply ihMore _ _ ⟨hle, rfl⟩
    exact hw.snoc (reads_orSign.1 hs) (ihRight between hm right mid hright) fun _ _ ↦ .or
  case case4 => -- a conjunction
    intro cs ihFirst ihMore e rest h
    obtain ⟨left, mid, hlt, hl, hm⟩ := reads_conjunction?_iff.1 h
    exact ihMore left mid hlt e rest hm cs
      ((ihFirst left mid ⟨hlt, hl⟩).imp fun _ hu ↦ hu.negation)
  case case5 => -- no more conjuncts
    intro left cs hn _ e rest h whole hw
    rw [moreConjuncts, hn] at h
    obtain ⟨rfl, rfl⟩ := reads_some_iff.1 h
    exact hw
  case case6 => -- one more conjunct
    intro left cs _ right mid hlt hp chain rest' hle hmore ihRight ihMore e rest h whole hw
    obtain ⟨between, hs, hm, hright⟩ := exists_of_reads_pair ⟨hlt, hp⟩
    rw [moreConjuncts, hp] at h
    simp only [hmore] at h
    rw [hmore] at ihMore
    obtain ⟨rfl, rfl⟩ := reads_some_iff.1 h
    apply ihMore _ _ ⟨hle, rfl⟩
    exact hw.snoc (reads_andSign.1 hs) (ihRight between hm right mid hright) fun _ _ ↦ .and
  case case7 => -- a negation
    intro cs _ operand rest' hp ih e rest h
    obtain ⟨between, hs, hm, ho⟩ := exists_of_reads_pair ⟨rest'.2, hp⟩
    rw [negation?, hp] at h
    obtain ⟨rfl, rfl⟩ := reads_some_iff.1 h
    obtain ⟨used, ht, hu⟩ := ih between hm operand _ ho
    exact ⟨.not :: used, (reads_notSign.1 hs).append ht, hu.not⟩
  case case8 => -- no negation
    intro cs hn _ ih e rest h
    rw [negation?, hn] at h
    exact (ih e rest h).imp fun _ hu ↦ hu.comparison
  case case9 => -- a comparison
    intro cs ihLeft ihRight e rest h
    obtain ho | ⟨left, comparison, right, mid, more, rfl, hl, hm, hs, hmore, hr⟩ :=
      exists_of_comparison? h
    · exact (ihLeft e rest ho).imp fun _ hu ↦ hu.operand
    · exact (ihLeft left mid hl).snoc hs (ihRight mid hm more hmore right rest hr)
        fun _ _ hu hu' ↦ hu.compare comparison hu'
  case case10 => -- an operand
    intro cs ih e rest h
    obtain ⟨token, ht, hl⟩ | ⟨mid, hp, rfl⟩ := exists_of_operand? h
    · exact ⟨[token], ht, .of_leaf? hl⟩
    · obtain ⟨inner, hc, used, ht, hu⟩ := ih e mid hp
      have ho := first?_eq_some_openParen_iff.2 hc
      have hclose : Takes [.closeParen] (')' :: mid) (skipGap mid) :=
        takes_singleton_iff.2 ⟨mid, first?_eq_some_closeParen_iff.2 rfl, rfl⟩
      exact ⟨.openParen :: used ++ [.closeParen], .cons ho (ht.append hclose), hu.parens⟩
  case case11 => -- parentheses
    intro cs ih e rest h
    exact ⟨cs, rfl, ih e _ (exists_of_parenthesized? h)⟩
  case case12 => -- no parentheses
    intro cs hn e rest h
    rw [parenthesized?] at h
    · exact absurd h not_reads_none
    · exact hn

/-- A text is read as a condition exactly when its tokens write the condition. -/
theorem parse?_eq_some_iff :
    parse? cs = some e ↔
      ∃ tokens, Token.scan? cs = some tokens ∧ Writes .disjunction e tokens := by
  have hspaced : parse? cs = some e ↔ Reads (spaced disjunction? cs) e [] := by
    rw [parse?]
    split
    · next expr h hd =>
      rw [hd, reads_some_iff, Option.some.injEq]
      exact (and_iff_left rfl).symm
    · next hn =>
      exact ⟨nofun, fun ⟨h, hd⟩ ↦ absurd hd (hn _ _)⟩
  rw [hspaced, spaced, reads_betweenGaps_iff]
  simp only [scan?_eq_some_iff]
  constructor
  · rintro ⟨mid, h, hnil⟩
    obtain ⟨tokens, ht, hw⟩ := derives_of_reads.1 _ _ _ h
    rw [← ht.skipGap_eq, hnil, takes_skipGap_iff] at ht
    exact ⟨tokens, ht, hw⟩
  · rintro ⟨tokens, ht, hw⟩
    have hr := hw.recovers _ _ e [] (takes_skipGap_iff.2 ht) nofun nofun
      (moreDisjuncts_of_ne nofun)
    exact ⟨[], hr, rfl⟩

/-- The truth of a condition is that of what its tokens write. -/
theorem evaluate_of_writes {scope : Scope} {condition : String} {tokens : List Token}
    (hs : Token.scan? (strictSpelling scope condition) = some tokens)
    (hw : Writes .disjunction e tokens) : evaluate scope condition = e.eval scope >>= truth := by
  rw [evaluate, parse?_eq_some_iff.2 ⟨tokens, hs, hw⟩]

/-- A condition that is a path to a truth value holds if that value does. -/
theorem holds_path {scope : Scope} {condition : String} {segments : List String} {flag : Bool}
    (hs : Token.scan? (strictSpelling scope condition) = some [.path segments])
    (hr : scope.resolveSegments segments = .found (.bool flag)) : holds scope condition = flag := by
  rw [holds, evaluate_of_writes hs (.lift (.path segments) .disjunction), Expr.eval, hr]
  rfl

end

end LoanClosing.Condition
