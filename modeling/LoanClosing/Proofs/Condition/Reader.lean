import LoanClosing.Proofs.Condition.Lexeme

/-!
# Readers and tokens

Each reader of signs, words, literals and paths takes from the front of a text just what the first
token takes there, and only when that token is the one that it reads. So the order in which a reader
tries its alternatives does the same as taking each token as long as it can be.
-/

namespace LoanClosing.Condition

/-- Something is read from the front of a text, and the rest is left. -/
def Reads {α : Type} {fits : List Char → Prop}
    (result : Option (α × { rest : List Char // fits rest })) (a : α) (rest : List Char) : Prop :=
  ∃ h, result = some (a, ⟨rest, h⟩)

section

variable {α β : Type} {cs rest : List Char} {a : α} {b : β}

theorem not_reads_none {fits : List Char → Prop} :
    ¬ Reads (none : Option (α × { rest : List Char // fits rest })) a rest := by
  rintro ⟨hlt, h⟩
  cases h

theorem reads_some_iff {fits : List Char → Prop} {p : α × { rest : List Char // fits rest }} :
    Reads (some p) a rest ↔ p.1 = a ∧ p.2.1 = rest := by
  constructor
  · rintro ⟨h, he⟩
    obtain rfl := Option.some.inj he
    exact ⟨rfl, rfl⟩
  · rintro ⟨rfl, rfl⟩
    exact ⟨p.2.2, rfl⟩

theorem reads_iff_map_eq {fits : List Char → Prop}
    {result : Option (α × { rest : List Char // fits rest })} :
    Reads result a rest ↔ (result.map fun p ↦ (p.1, p.2.1)) = some (a, rest) := by
  cases result with
  | none => exact iff_of_false not_reads_none (by simp)
  | some p => rw [reads_some_iff, Option.map_some, Option.some.injEq, Prod.mk.injEq]

theorem Reads.eq_none_iff {fits : List Char → Prop}
    {result : Option (α × { rest : List Char // fits rest })} :
    result = none ↔ ∀ a rest, ¬ Reads result a rest := by
  constructor
  · rintro rfl a rest
    exact not_reads_none
  · intro h
    rw [Option.eq_none_iff_forall_ne_some]
    rintro ⟨a, rest, hr⟩ he
    exact h a rest ⟨hr, he⟩

theorem reads_pair_iff {first : Option (β × Shorter cs)}
    {second : (rest : List Char) → rest.length < cs.length → Option (α × Shorter rest)} :
    Reads (pair first second) (b, a) rest ↔
      ∃ mid h, first = some (b, ⟨mid, h⟩) ∧ Reads (second mid h) a rest := by
  constructor
  · rintro ⟨hlt, h⟩
    rw [pair] at h
    simp only [Option.bind_eq_bind, Option.bind_eq_some_iff] at h
    obtain ⟨⟨b', mid, hm⟩, hfirst, ⟨a', rest', hr⟩, hsecond, he⟩ := h
    obtain ⟨⟨rfl, rfl⟩, rfl⟩ : (b' = b ∧ a' = a) ∧ rest' = rest := by simpa using he
    exact ⟨mid, hm, hfirst, hr, hsecond⟩
  · rintro ⟨mid, hm, hfirst, hr, hsecond⟩
    rw [pair, hfirst]
    simp only [Option.bind_eq_bind, Option.bind_some, hsecond]
    exact ⟨_, rfl⟩

theorem reads_betweenGaps_iff {read : Option (α × Shorter (skipGap cs))} :
    Reads (betweenGaps read) a rest ↔ ∃ mid, Reads read a mid ∧ skipGap mid = rest := by
  constructor
  · rintro ⟨hlt, h⟩
    rw [betweenGaps, Option.map_eq_some_iff] at h
    obtain ⟨⟨a', mid, hm⟩, hread, he⟩ := h
    obtain ⟨rfl, rfl⟩ : a' = a ∧ skipGap mid = rest := by simpa using he
    exact ⟨mid, ⟨hm, hread⟩, rfl⟩
  · rintro ⟨mid, ⟨hm, rfl⟩, rfl⟩
    exact ⟨_, rfl⟩

theorem reads_char?_iff {c d : Char} : Reads (char? c cs) d rest ↔ d = c ∧ cs = c :: rest := by
  cases cs with
  | nil => exact iff_of_false not_reads_none fun h ↦ List.cons_ne_nil _ _ h.2.symm
  | cons first cs =>
    rw [char?]
    split
    · next hc => rw [reads_some_iff, hc, List.cons_eq_cons, eq_comm, and_iff_right rfl]
    · next hc => exact iff_of_false not_reads_none fun h ↦ hc (List.cons.inj h.2).1

theorem reads_recognize_iff {length : List Char → Nat} {w : List Char} :
    Reads (recognize length cs) w rest ↔
      cs ≠ [] ∧ length cs ≠ 0 ∧ cs.take (length cs) = w ∧ cs.drop (length cs) = rest := by
  cases cs with
  | nil => exact iff_of_false not_reads_none fun h ↦ h.1 rfl
  | cons c cs =>
    rw [recognize]
    split
    · next hz => exact iff_of_false not_reads_none fun h ↦ h.2.1 hz
    · next n hn =>
      rw [hn, List.take_succ_cons, List.drop_succ_cons]
      constructor
      · rintro ⟨hlt, h⟩
        obtain ⟨rfl, rfl⟩ : c :: cs.take n = w ∧ cs.drop n = rest := by simpa using h
        exact ⟨List.cons_ne_nil _ _, Nat.succ_ne_zero _, rfl, rfl⟩
      · rintro ⟨-, -, rfl, rfl⟩
        exact ⟨_, rfl⟩

/-- Alternatives that take nothing are passed over, and of the others the first is taken. -/
theorem reads_oneOf_cons {meaning : α} {length : List Char → Nat}
    {alternatives : List (α × (List Char → Nat))} {c : Char} :
    Reads (oneOf ((meaning, length) :: alternatives) (c :: cs)) a rest ↔
      if length (c :: cs) = 0 then Reads (oneOf alternatives (c :: cs)) a rest
      else meaning = a ∧ (c :: cs).drop (length (c :: cs)) = rest := by
  have hrec := fun rest w ↦ @reads_recognize_iff (c :: cs) rest length w
  simp only [oneOf, List.findSome?_cons]
  cases hr : recognize length (c :: cs) with
  | none =>
    have hz : length (c :: cs) = 0 := by
      by_contra hne
      exact Reads.eq_none_iff.1 hr _ _ ((hrec _ _).2 ⟨List.cons_ne_nil _ _, hne, rfl, rfl⟩)
    rw [if_pos hz, Option.map_none]
  | some p =>
    obtain ⟨w, rest', h⟩ := p
    obtain ⟨-, hne, -, rfl⟩ := (hrec _ _).1 ⟨h, hr⟩
    rw [if_neg hne, Option.map_some]
    constructor
    · rintro ⟨hlt, he⟩
      simpa using he
    · rintro ⟨rfl, rfl⟩
      exact ⟨h, rfl⟩

theorem not_reads_oneOf_nil : ¬ Reads (oneOf ([] : List (α × (List Char → Nat))) cs) a rest :=
  not_reads_none

end

/-! ## The lengths of signs and words -/

/-- A word of letters stands at the front just when the characters of an identifier there are its
letters in some case. -/
theorem wordLength_eq {word : String} (ha : word.toList.all Char.isAlpha = true)
    (cs : List Char) :
    wordLength word cs =
      if (cs.takeWhile Text.isIdentifierPart).map Char.toLower = word.toList then
        word.toList.length
      else 0 := by
  rw [wordLength]
  congr 1
  rw [Bool.and_eq_true, beq_iff_eq, Bool.not_eq_true', eq_iff_iff]
  constructor
  · rintro ⟨hl, hr⟩
    have hpart : ∀ c ∈ cs.take word.toList.length, Text.isIdentifierPart c = true := by
      intro c hc
      have hm : c.toLower ∈ word.toList := by
        rw [← hl]
        exact List.mem_map_of_mem hc
      apply isIdentifierPart_of_isAlpha
      rw [← Text.apply_toLower Char.isAlpha (by decide)]
      exact List.all_eq_true.1 ha _ hm
    rw [← List.take_append_drop word.toList.length cs, takeWhile_append_of_head? hpart hr, hl]
  · intro hl
    have hlength : word.toList.length = (cs.takeWhile Text.isIdentifierPart).length := by
      rw [← hl, List.length_map]
    rw [hlength, take_length_takeWhile, drop_length_takeWhile]
    exact ⟨hl, any_head?_dropWhile _ _⟩

/-! ## The first token -/

namespace Token

variable {token : Token} {c : Char} {cs rest : List Char}

/-- Where a word begins, the first token is the whole word. -/
theorem first?_eq_some_iff_word (hs : Text.isIdentifierStart c = true) :
    first? (c :: cs) = some (token, rest) ↔
      ofWord? ((c :: cs).takeWhile Text.isIdentifierPart) = some token ∧
        cs.dropWhile Text.isIdentifierPart = rest := by
  have hpart := isIdentifierPart_of_isIdentifierStart hs
  have hq := isQuote_of_isOrdinary (isOrdinary_of_isIdentifierPart hpart)
  have hat : c ≠ '@' := by
    rintro rfl
    exact absurd hs (by decide)
  rw [first?, next?, if_neg (by rw [hq]; decide), if_neg hat, if_pos hs,
    List.takeWhile_cons_of_pos hpart]
  simp only [Option.map_map, Option.map_eq_some_iff, Function.comp_apply, Prod.mk.injEq,
    drop_length_takeWhile]
  constructor
  · rintro ⟨token, ht, rfl, rfl⟩
    exact ⟨ht, rfl⟩
  · rintro ⟨ht, rfl⟩
    exact ⟨token, ht, rfl, rfl⟩

/-- Whether a text, a path or a number begins with a character. -/
def beginsLeaf (c : Char) : Prop := isQuote c = true ∨ c = '@' ∨ c.isDigit = true ∨ c = '-'

theorem ofPair?_of_beginsLeaf (h : beginsLeaf c) (d : Char) : ofPair? c d = none := by
  unfold ofPair?
  split
  case h_7 => rfl
  all_goals exact absurd h (by unfold beginsLeaf; decide)

theorem ofSign?_of_beginsLeaf (h : beginsLeaf c) : ofSign? c = none := by
  unfold ofSign?
  split
  case h_6 => rfl
  all_goals exact absurd h (by unfold beginsLeaf; decide)

/-- A text, a path or a number is no sign. -/
theorem isSign_of_beginsLeaf {taken : Nat} (hs : Text.isIdentifierStart c = false)
    (h : beginsLeaf c) (ht : next? c cs = some (token, taken)) : token.isSign = false := by
  revert ht
  fun_cases next? c cs with
  | case5 _ _ hstart => exact absurd (hs.symm.trans hstart) (by decide)
  | case9 hq hat _ hd hm | case10 hq hat _ hd hm => exact absurd h (by simp [beginsLeaf, *])
  | case1 | case4 => rintro ⟨⟩; rfl
  | case6 | case8 =>
    rw [next?.number, Option.map_eq_some_iff]
    rintro ⟨amount, -, he⟩
    obtain ⟨rfl, -⟩ := Prod.mk.inj he
    rfl
  | _ => exact nofun

theorem ofPair?_eq_none_iff {d : Char} :
    ofPair? c d = none ↔ ∀ p ∈ strictSigns, p.1 ≠ [c, d] := by
  rw [Option.eq_none_iff_forall_ne_some]
  constructor
  · rintro h ⟨sign, token⟩ hp rfl
    exact h token (ofPair?_eq_some_iff.2 hp)
  · exact fun h token ht ↦ h _ (ofPair?_eq_some_iff.1 ht) rfl

/-- Where no word begins, a first token that is a sign is one of two characters or, if these are
none, one of a single character. -/
theorem first?_eq_some_iff_sign (hs : Text.isIdentifierStart c = false) (ht : token.isSign = true) :
    first? (c :: cs) = some (token, rest) ↔
      (∃ d, cs = d :: rest ∧ ([c, d], token) ∈ strictSigns) ∨
        (∀ d ∈ cs.head?, ∀ p ∈ strictSigns, p.1 ≠ [c, d]) ∧ ([c], token) ∈ strictSigns ∧
          cs = rest := by
  simp only [← ofSign?_eq_some_iff, ← ofPair?_eq_some_iff, ← ofPair?_eq_none_iff]
  by_cases h : beginsLeaf c
  · simp only [ofPair?_of_beginsLeaf h, ofSign?_of_beginsLeaf h]
    rw [first?, Option.map_eq_some_iff]
    constructor
    · rintro ⟨⟨token', taken⟩, hn, he⟩
      obtain ⟨rfl, -⟩ := Prod.mk.inj he
      rw [isSign_of_beginsLeaf hs h hn] at ht
      cases ht
    · rintro (⟨_, -, hf⟩ | ⟨-, hf, -⟩) <;> cases hf
  · simp only [beginsLeaf, not_or] at h
    obtain ⟨hq, hat, hd, hm⟩ := h
    rw [first?, next?, if_neg hq, if_neg hat, if_neg (by rw [hs]; decide), if_neg hd, if_neg hm]
    cases cs with
    | nil => cases ofSign? c <;> simp
    | cons d more => cases hp : ofPair? c d <;> cases ofSign? c <;> grind

end Token

/-! ## Alternatives one by one -/

section

variable {α : Type} {a meaning : α} {alternatives : List (α × (List Char → Nat))} {word : String}
  {c d e : Char} {more cs rest : List Char}

/-- A word that stands at the front is taken, and one that does not is passed over. -/
theorem reads_oneOf_word (hs : Text.isIdentifierStart c = true) (hne : word.toList ≠ [])
    (ha : word.toList.all Char.isAlpha = true) :
    Reads (oneOf ((meaning, wordLength word) :: alternatives) (c :: cs)) a rest ↔
      if ((c :: cs).takeWhile Text.isIdentifierPart).map Char.toLower = word.toList then
        meaning = a ∧ cs.dropWhile Text.isIdentifierPart = rest
      else Reads (oneOf alternatives (c :: cs)) a rest := by
  have hpart := isIdentifierPart_of_isIdentifierStart hs
  rw [reads_oneOf_cons, wordLength_eq ha]
  by_cases hl : ((c :: cs).takeWhile Text.isIdentifierPart).map Char.toLower = word.toList
  · have hlength := congrArg List.length hl
    rw [List.length_map] at hlength
    rw [if_pos hl, if_pos hl, if_neg (by simpa using hne), ← hlength, drop_length_takeWhile,
      List.dropWhile_cons_of_pos hpart]
  · rw [if_neg hl, if_neg hl, if_pos rfl]

/-- Of words with one meaning each, the one that stands at the front is taken. -/
theorem reads_oneOf_words (words : List (α × String)) (hs : Text.isIdentifierStart c = true)
    (hw : ∀ p ∈ words, p.2.toList ≠ [] ∧ p.2.toList.all Char.isAlpha = true)
    (hm : ∀ p ∈ words, ∀ q ∈ words, p.2 = q.2 → p.1 = q.1) :
    Reads (oneOf (words.map fun p ↦ (p.1, wordLength p.2)) (c :: cs)) a rest ↔
      (∃ word, (a, word) ∈ words ∧
        ((c :: cs).takeWhile Text.isIdentifierPart).map Char.toLower = word.toList) ∧
        cs.dropWhile Text.isIdentifierPart = rest := by
  induction words with
  | nil => exact ⟨fun h ↦ absurd h not_reads_oneOf_nil, fun ⟨⟨_, h, _⟩, _⟩ ↦ absurd h nofun⟩
  | cons p words ih =>
    obtain ⟨meaning, word⟩ := p
    have ih := ih (fun q hq ↦ hw q (List.mem_cons_of_mem _ hq)) fun q hq q' hq' ↦
      hm q (List.mem_cons_of_mem _ hq) q' (List.mem_cons_of_mem _ hq')
    obtain ⟨hne, ha⟩ := hw _ List.mem_cons_self
    rw [List.map_cons, reads_oneOf_word hs hne ha]
    split
    · next hl =>
      refine and_congr_left fun _ ↦ ⟨?_, ?_⟩
      · rintro rfl
        exact ⟨word, List.mem_cons_self, hl⟩
      · rintro ⟨other, ho, hl'⟩
        exact hm _ List.mem_cons_self _ ho (String.toList_inj.1 (hl.symm.trans hl'))
    · next hl =>
      rw [ih]
      refine and_congr_left fun _ ↦ exists_congr fun other ↦ ?_
      grind

/-- No word stands where none begins. -/
theorem reads_oneOf_word_of_not_start (hs : Text.isIdentifierStart c = false)
    (hne : word.toList ≠ []) (ha : word.toList.all Char.isAlpha = true) :
    Reads (oneOf ((meaning, wordLength word) :: alternatives) (c :: cs)) a rest ↔
      Reads (oneOf alternatives (c :: cs)) a rest := by
  have hl : ((c :: cs).takeWhile Text.isIdentifierPart).map Char.toLower ≠ word.toList := by
    intro hl
    obtain ⟨d, letters, hw⟩ := List.exists_cons_of_ne_nil hne
    rw [hw] at hl ha
    obtain ⟨c', run, hrun, rfl, -⟩ := List.map_eq_cons_iff.1 hl
    have hc : c' = c := by
      rw [List.takeWhile_cons] at hrun
      split at hrun
      · exact (List.cons.inj hrun).1.symm
      · cases hrun
    rw [List.all_cons, Bool.and_eq_true, Text.apply_toLower Char.isAlpha (by decide), hc] at ha
    rw [isIdentifierStart_of_isAlpha ha.1] at hs
    cases hs
  have hz : wordLength word (c :: cs) = 0 := by rw [wordLength_eq ha, if_neg hl]
  rw [reads_oneOf_cons, if_pos hz]

/-- No sign stands where a word begins. -/
theorem reads_oneOf_sign_of_start (hs : Text.isIdentifierStart c = true)
    (hd : Text.isIdentifierStart d = false) :
    Reads (oneOf ((meaning, signLength (d :: more)) :: alternatives) (c :: cs)) a rest ↔
      Reads (oneOf alternatives (c :: cs)) a rest := by
  have hne : d ≠ c := by
    rintro rfl
    exact absurd (hs.symm.trans hd) (by decide)
  have hz : signLength (d :: more) (c :: cs) = 0 := by simp [signLength, hne]
  rw [reads_oneOf_cons, if_pos hz]

theorem reads_oneOf_pair :
    Reads (oneOf ((meaning, signLength [d, e]) :: alternatives) (c :: cs)) a rest ↔
      if c = d ∧ cs.head? = some e then meaning = a ∧ cs.drop 1 = rest
      else Reads (oneOf alternatives (c :: cs)) a rest := by
  have hl : signLength [d, e] (c :: cs) = if c = d ∧ cs.head? = some e then 2 else 0 := by
    cases cs with
    | nil => simp [signLength]
    | cons c' cs => simp [signLength, eq_comm (a := c), eq_comm (a := c')]
  rw [reads_oneOf_cons, hl]
  split
  · rfl
  · rfl

theorem reads_oneOf_single :
    Reads (oneOf ((meaning, signLength [d]) :: alternatives) (c :: cs)) a rest ↔
      if c = d then meaning = a ∧ cs = rest else Reads (oneOf alternatives (c :: cs)) a rest := by
  have hl : signLength [d] (c :: cs) = if c = d then 1 else 0 := by
    simp [signLength, eq_comm (a := c)]
  rw [reads_oneOf_cons, hl]
  split
  · rfl
  · rfl

end

/-! ## Signs -/

section

variable {cs rest : List Char} {comparison : Comparison}

/-- A reader of signs and words reads the first token of a text if it does where a word begins and
where none does. -/
theorem reads_iff_first? {α : Type} (read : Reader α) {a : α} {token : Token}
    (hword : ∀ c cs, Text.isIdentifierStart c = true → (Reads (read (c :: cs)) a rest ↔
      (∃ word, (word, token) ∈ reservedWords ∧
        ((c :: cs).takeWhile Text.isIdentifierPart).map Char.toLower = word.toList) ∧
        cs.dropWhile Text.isIdentifierPart = rest))
    (hsign : ∀ c cs, Text.isIdentifierStart c = false → (Reads (read (c :: cs)) a rest ↔
      (∃ d, cs = d :: rest ∧ ([c, d], token) ∈ strictSigns) ∨
        (∀ d ∈ cs.head?, ∀ p ∈ strictSigns, p.1 ≠ [c, d]) ∧ ([c], token) ∈ strictSigns ∧
          cs = rest))
    (ht : token.isSign = true) (cs : List Char) :
    Reads (read cs) a rest ↔ Token.first? cs = some (token, rest) := by
  cases cs with
  | nil => exact ⟨fun ⟨h, _⟩ ↦ absurd h (Nat.not_lt_zero _), nofun⟩
  | cons c cs =>
    cases hs : Text.isIdentifierStart c with
    | true => rw [hword c cs hs, Token.first?_eq_some_iff_word hs, Token.ofWord?_eq_some_iff]
    | false => rw [hsign c cs hs, Token.first?_eq_some_iff_sign hs ht]

/-- A sign of one character that no other sign begins with, and no word, for one token. -/
theorem first?_eq_some_iff_single {d : Char} {token : Token}
    (hsigns : ∀ sign, (sign, token) ∈ strictSigns ↔ sign = [d])
    (hwords : ∀ word, (word, token) ∉ reservedWords)
    (hpairs : ∀ p ∈ strictSigns, p.1.head? = some d → p.1 = [d])
    (hd : Text.isIdentifierStart d = false) (ht : token.isSign = true) :
    Token.first? cs = some (token, rest) ↔ cs = d :: rest := by
  cases cs with
  | nil => exact ⟨nofun, nofun⟩
  | cons c cs =>
    cases hs : Text.isIdentifierStart c with
    | true =>
      rw [Token.first?_eq_some_iff_word hs, Token.ofWord?_eq_some_iff]
      simp only [hwords, false_and, exists_false, false_iff]
      rintro ⟨rfl, -⟩
      exact absurd (hs.symm.trans hd) (by decide)
    | false =>
      rw [Token.first?_eq_some_iff_sign hs ht]
      simp only [hsigns]
      constructor
      · rintro (⟨_, -, he⟩ | ⟨-, he, rfl⟩)
        · cases he
        · rw [List.singleton_inj.1 he]
      · rintro ⟨rfl, rfl⟩
        refine .inr ⟨fun c' _ p hp he ↦ ?_, rfl, rfl⟩
        have hsingle := hpairs p hp (by rw [he]; rfl)
        rw [he] at hsingle
        cases hsingle

theorem first?_eq_some_openParen_iff :
    Token.first? cs = some (.openParen, rest) ↔ cs = '(' :: rest :=
  first?_eq_some_iff_single (by simp [strictSigns]) (by simp [reservedWords]) (by decide)
    (by decide) rfl

theorem first?_eq_some_closeParen_iff :
    Token.first? cs = some (.closeParen, rest) ↔ cs = ')' :: rest :=
  first?_eq_some_iff_single (by simp [strictSigns]) (by simp [reservedWords]) (by decide)
    (by decide) rfl

/-- A sign of one character twice, or one of two words, for one token. -/
theorem reads_joinSign_iff {d : Char} {long short : String} {token : Token}
    (hsigns : ∀ sign, (sign, token) ∈ strictSigns ↔ sign = [d, d])
    (hwords : ∀ word, (word, token) ∈ reservedWords ↔ word = short ∨ word = long)
    (hd : Text.isIdentifierStart d = false)
    (hl : long.toList ≠ [] ∧ long.toList.all Char.isAlpha = true)
    (hs : short.toList ≠ [] ∧ short.toList.all Char.isAlpha = true) (ht : token.isSign = true) :
    Reads (oneOf [((), signLength [d, d]), ((), wordLength long), ((), wordLength short)] cs) ()
      rest ↔ Token.first? cs = some (token, rest) := by
  refine reads_iff_first? (oneOf _) ?_ ?_ ht cs
  · intro c cs hc
    rw [reads_oneOf_sign_of_start hc hd]
    refine (reads_oneOf_words [((), long), ((), short)] hc ?_
      fun _ _ _ _ _ ↦ rfl).trans ?_
    · rw [List.forall_mem_cons, List.forall_mem_singleton]
      exact ⟨hl, hs⟩
    · simp [hwords, or_comm]
  · intro c cs hc
    rw [reads_oneOf_pair, reads_oneOf_word_of_not_start hc hl.1 hl.2,
      reads_oneOf_word_of_not_start hc hs.1 hs.2]
    simp only [hsigns, not_reads_oneOf_nil]
    cases cs <;> grind

theorem reads_orSign?_iff : Reads (orSign? cs) () rest ↔ Token.first? cs = some (.or, rest) :=
  reads_joinSign_iff (by simp [strictSigns]) (by simp [reservedWords]) (by decide) (by decide)
    (by decide) rfl

theorem reads_andSign?_iff :
    Reads (andSign? cs) () rest ↔ Token.first? cs = some (.and, rest) :=
  reads_joinSign_iff (by simp [strictSigns]) (by simp [reservedWords]) (by decide) (by decide)
    (by decide) rfl

theorem mem_strictSigns_not {sign : List Char} :
    (sign, Token.not) ∈ strictSigns ↔ sign = ['!'] := by
  simp [strictSigns]

theorem mem_reservedWords_not {word : String} :
    (word, Token.not) ∈ reservedWords ↔ word = "not" := by
  simp [reservedWords]

theorem bangLength_cons (c : Char) (cs : List Char) :
    bangLength (c :: cs) = if c = '!' ∧ cs.head? ≠ some '=' then 1 else 0 := by
  have hsign : signLength ['!'] (c :: cs) = if c = '!' then 1 else 0 := by
    simp [signLength, eq_comm (a := c)]
  rw [bangLength, hsign, List.drop_succ_cons, List.drop_zero]
  grind

theorem reads_notSign?_iff :
    Reads (notSign? cs) () rest ↔ Token.first? cs = some (.not, rest) := by
  refine reads_iff_first? _ ?_ ?_ rfl cs
  · intro c cs hs
    have hz : bangLength (c :: cs) = 0 := by
      rw [bangLength_cons, if_neg]
      rintro ⟨rfl, -⟩
      exact absurd hs (by decide)
    rw [notSign?, reads_oneOf_cons, if_pos hz, reads_oneOf_word hs (by decide) (by decide)]
    simp only [mem_reservedWords_not, not_reads_oneOf_nil, exists_eq_left]
    generalize "not".toList = letters
    grind
  · intro c cs hs
    rw [notSign?, reads_oneOf_cons, bangLength_cons,
      reads_oneOf_word_of_not_start hs (by decide) (by decide)]
    simp only [mem_strictSigns_not, not_reads_oneOf_nil]
    cases cs with
    | nil => grind
    | cons d more => simp [strictSigns]; grind

theorem mem_strictSigns_compare {sign : List Char} :
    (sign, Token.compare comparison) ∈ strictSigns ↔ sign = match comparison with
      | .equal => ['=', '=']
      | .unequal => ['!', '=']
      | .less => ['<']
      | .atMost => ['<', '=']
      | .greater => ['>']
      | .atLeast => ['>', '='] := by
  cases comparison <;> simp [strictSigns]

theorem not_mem_reservedWords_compare {word : String} :
    (word, Token.compare comparison) ∉ reservedWords := by
  simp [reservedWords]

theorem reads_compareSign?_iff :
    Reads (compareSign? cs) comparison rest ↔
      Token.first? cs = some (.compare comparison, rest) := by
  refine reads_iff_first? _ ?_ ?_ rfl cs
  · intro c cs hs
    simp only [not_mem_reservedWords_compare, false_and, exists_false, iff_false]
    rw [compareSign?]
    iterate 6 rw [reads_oneOf_sign_of_start hs (by decide)]
    exact not_reads_oneOf_nil
  · intro c cs hs
    rw [compareSign?, reads_oneOf_pair, reads_oneOf_pair, reads_oneOf_pair, reads_oneOf_pair,
      reads_oneOf_single, reads_oneOf_single]
    simp only [mem_strictSigns_compare, not_reads_oneOf_nil]
    cases cs with
    | nil => cases comparison <;> grind
    | cons d more => cases comparison <;> simp [strictSigns] <;> grind

end

/-! ## Literals and paths -/

/-- The literal or path that a token is. -/
def Token.leaf? : Token → Option Expr
  | .literal value => some (.literal value)
  | .path segments => some (.path segments)
  | _ => none

theorem Token.leaf?_of_isSign {token : Token} (h : token.isSign = true) : token.leaf? = none := by
  cases token with
  | literal | path => cases h
  | _ => rfl

section

variable {c : Char} {cs rest : List Char} {e : Expr}

theorem text?_eq_none (h : isQuote c = false) : text? (c :: cs) = none := by
  rw [text?, if_neg (by simp [h])]

theorem number?_eq_none (hd : c.isDigit = false) (hm : c ≠ '-') : number? (c :: cs) = none := by
  have hz : numeralLength (c :: cs) = 0 := by
    rw [numeralLength]
    · rw [numberLength, List.takeWhile_cons_of_neg (by simp [hd])]
    · exact fun _ h ↦ hm (List.cons.inj h).1
  rw [number?, recognize, hz]
  rfl

theorem constant?_eq_none (h : Text.isIdentifierStart c = false) :
    constant? (c :: cs) = none := by
  rw [Reads.eq_none_iff, constant?]
  intro value rest
  iterate 4 rw [reads_oneOf_word_of_not_start h (by decide) (by decide)]
  exact not_reads_oneOf_nil

theorem path?_eq_none (h : c ≠ '@') : path? (c :: cs) = none := by
  rw [path?]
  exact fun _ he ↦ h (List.cons.inj he).1

theorem reads_constant?_iff {value : Literal} (hs : Text.isIdentifierStart c = true) :
    Reads (constant? (c :: cs)) value rest ↔
      Token.first? (c :: cs) = some (.literal value, rest) := by
  rw [Token.first?_eq_some_iff_word hs, Token.ofWord?_eq_some_iff]
  refine (reads_oneOf_words [(Literal.bool true, "true"), (.bool false, "false"), (.null, "null"),
    (.null, "nothing")] hs (by decide) (by decide)).trans ?_
  simp [reservedWords, and_comm]

/-- The literal or path that is read is the first token of the text. -/
def ReadsLeaf (cs : List Char) : Prop :=
  ((atom? cs).map fun p ↦ (p.1, p.2.1)) =
    (Token.first? cs).bind fun (token, rest) ↦ token.leaf?.map (·, rest)

theorem readsLeaf_of_start (hs : Text.isIdentifierStart c = true) : ReadsLeaf (c :: cs) := by
  have hpart := isIdentifierPart_of_isIdentifierStart hs
  have hq := isQuote_of_isOrdinary (isOrdinary_of_isIdentifierPart hpart)
  have hd : c.isDigit = false := by
    by_contra hd
    rw [Bool.not_eq_false] at hd
    exact absurd (hs.symm.trans (isIdentifierStart_of_isDigit hd)) (by decide)
  have hm : c ≠ '-' := by
    rintro rfl
    exact absurd hs (by decide)
  have hat : c ≠ '@' := by
    rintro rfl
    exact absurd hs (by decide)
  rw [ReadsLeaf, atom?, text?_eq_none hq, number?_eq_none hd hm, path?_eq_none hat]
  cases hc : constant? (c :: cs) with
  | some p =>
    obtain ⟨value, rest, h⟩ := p
    rw [(reads_constant?_iff hs).1 ⟨h, hc⟩]
    rfl
  | none =>
    cases hf : Token.first? (c :: cs) with
    | none => rfl
    | some p =>
      obtain ⟨token, rest⟩ := p
      cases token with
      | literal value => exact absurd ((reads_constant?_iff hs).2 hf) (Reads.eq_none_iff.1 hc _ _)
      | path segments =>
        rw [Token.first?_eq_some_iff_word hs, Token.ofWord?_eq_some_iff] at hf
        obtain ⟨⟨word, hm, -⟩, -⟩ := hf
        exact absurd hm (by simp [reservedWords])
      | _ => rfl

theorem readsLeaf_of_quote (h : isQuote c = true) : ReadsLeaf (c :: cs) := by
  have hord : ∀ {p : Char → Bool}, p '\x22' = false ∧ p '\x27' = false → p c = false := by
    rw [isQuote, Bool.or_eq_true, beq_iff_eq, beq_iff_eq] at h
    rcases h with rfl | rfl
    · exact fun hp ↦ hp.1
    · exact fun hp ↦ hp.2
  have hm : c ≠ '-' := by simpa using hord (p := (· == '-')) (by decide)
  have hat : c ≠ '@' := by simpa using hord (p := (· == '@')) (by decide)
  rw [ReadsLeaf, atom?, number?_eq_none (hord (by decide)) hm,
    constant?_eq_none (hord (by decide)), path?_eq_none hat, text?, Token.first?, Token.next?,
    if_pos h, h, Bool.true_and]
  by_cases hl : (cs.takeWhile (· != c)).length < cs.length
  · simp only [if_pos hl, decide_eq_true hl]
    rfl
  · simp only [if_neg hl, decide_eq_false hl]
    rfl

theorem readsLeaf_of_mark : ReadsLeaf ('@' :: cs) := by
  rw [ReadsLeaf, atom?, text?_eq_none (by decide), number?_eq_none (by decide) (by decide),
    constant?_eq_none (by decide), path?, Token.first?, Token.next?, if_neg (by decide),
    if_pos rfl]
  cases cs with
  | nil => rw [recognize, nameLength]; rfl
  | cons d cs =>
    rw [recognize]
    split
    · next hz => rw [hz]; rfl
    · next n hn => rw [hn]; rfl

/-- A number is read when the first token is one. -/
theorem readsLeaf_of_number (hq : isQuote c = false) (hs : Text.isIdentifierStart c = false)
    (hat : c ≠ '@')
    (hnext : Token.next? c cs = match numeralLength (c :: cs) with
      | 0 => none
      | n + 1 => Token.next?.number c cs n) : ReadsLeaf (c :: cs) := by
  rw [ReadsLeaf, atom?, text?_eq_none hq, constant?_eq_none hs, path?_eq_none hat, Token.first?,
    hnext, number?, recognize]
  cases numeralLength (c :: cs) with
  | zero => rfl
  | succ n =>
    simp only [Token.next?.number, Option.bind_eq_bind, Option.bind_some]
    cases Decimal.ofChars? (c :: cs.take n) with
    | none => rfl
    | some amount => rfl

theorem readsLeaf_of_digit (h : c.isDigit = true) : ReadsLeaf (c :: cs) := by
  have hq := isQuote_of_isOrdinary (isOrdinary_of_isIdentifierPart (isIdentifierPart_of_isDigit h))
  have hs := isIdentifierStart_of_isDigit h
  have hat : c ≠ '@' := by
    rintro rfl
    exact absurd h (by decide)
  have hm : c ≠ '-' := by
    rintro rfl
    exact absurd h (by decide)
  refine readsLeaf_of_number hq hs hat ?_
  have hl : numeralLength (c :: cs) = numberLength (c :: cs) := by
    rw [numeralLength]
    exact fun _ he ↦ hm (List.cons.inj he).1
  rw [Token.next?, if_neg (by rw [hq]; decide), if_neg hat, if_neg (by rw [hs]; decide), if_pos h,
    hl]
  cases hn : numberLength (c :: cs) with
  | zero => exact absurd hn (numberLength_ne_zero h cs)
  | succ n => rfl

theorem readsLeaf_of_minus : ReadsLeaf ('-' :: cs) := by
  refine readsLeaf_of_number (by decide) (by decide) (by decide) ?_
  rw [Token.next?, if_neg (by decide), if_neg (by decide), if_neg (by decide),
    if_neg (by decide), if_pos rfl, numeralLength]
  cases numberLength cs with
  | zero => rfl
  | succ n => rfl

/-- What begins neither a word nor a text, a path or a number is a sign, or no token. -/
theorem readsLeaf_of_not_beginsLeaf (hs : Text.isIdentifierStart c = false)
    (h : ¬ Token.beginsLeaf c) : ReadsLeaf (c :: cs) := by
  simp only [Token.beginsLeaf, not_or, Bool.not_eq_true] at h
  obtain ⟨hq, hat, hd, hm⟩ := h
  rw [ReadsLeaf, atom?, text?_eq_none hq, number?_eq_none hd hm, constant?_eq_none hs,
    path?_eq_none hat]
  cases hf : Token.first? (c :: cs) with
  | none => rfl
  | some p =>
    obtain ⟨token, rest⟩ := p
    have hsigns : ∀ p ∈ strictSigns, p.2.isSign = true := by decide
    have hsign : token.isSign = true := by
      rw [Token.first?, Token.next?, if_neg (by simp [hq]), if_neg hat, if_neg (by simp [hs]),
        if_neg (by simp [hd]), if_neg hm, Option.map_eq_some_iff] at hf
      obtain ⟨⟨token', taken⟩, hn, he⟩ := hf
      obtain ⟨rfl, -⟩ := Prod.mk.inj he
      split at hn
      · next hp =>
        obtain ⟨rfl, -⟩ := Prod.mk.inj (Option.some.inj hn)
        obtain ⟨d, -, hp⟩ := Option.bind_eq_some_iff.1 hp
        exact hsigns _ (Token.ofPair?_eq_some_iff.1 hp)
      · obtain ⟨sign, hsign, he⟩ := Option.map_eq_some_iff.1 hn
        obtain ⟨rfl, -⟩ := Prod.mk.inj he
        exact hsigns _ (Token.ofSign?_eq_some_iff.1 hsign)
    simp only [Option.bind_some, Token.leaf?_of_isSign hsign]
    rfl

theorem readsLeaf (cs : List Char) : ReadsLeaf cs := by
  cases cs with
  | nil => rfl
  | cons c cs =>
    cases hs : Text.isIdentifierStart c with
    | true => exact readsLeaf_of_start hs
    | false =>
      by_cases h : Token.beginsLeaf c
      · obtain h | rfl | h | rfl := h
        · exact readsLeaf_of_quote h
        · exact readsLeaf_of_mark
        · exact readsLeaf_of_digit h
        · exact readsLeaf_of_minus
      · exact readsLeaf_of_not_beginsLeaf hs h

/-- The literals and paths that are read are the first tokens that are one. -/
theorem reads_atom?_iff {e : Expr} :
    Reads (atom? cs) e rest ↔
      ∃ token, Token.first? cs = some (token, rest) ∧ token.leaf? = some e := by
  rw [reads_iff_map_eq, readsLeaf cs, Option.bind_eq_some_iff]
  constructor
  · rintro ⟨⟨token, rest⟩, hf, h⟩
    obtain ⟨e, hl, he⟩ := Option.map_eq_some_iff.1 h
    obtain ⟨rfl, rfl⟩ := Prod.mk.inj he
    exact ⟨token, hf, hl⟩
  · rintro ⟨token, hf, hl⟩
    exact ⟨(token, rest), hf, Option.map_eq_some_iff.2 ⟨e, hl, rfl⟩⟩

end

end LoanClosing.Condition
