import LoanClosing.Proofs.Condition.Language
import LoanClosing.Proofs.Condition.Paths

/-!
# References are bound

Where authors write no mark themselves, every mark outside of quotes is one that qualifying has put
in front of a name in scope. The scanner agrees with it about quotes and about where the word behind
the mark ends, so every path of the condition begins with that name. Evaluation then never fails
because a path begins with anything else.
-/

namespace LoanClosing

namespace Scope

variable {scope : Scope} {name : String}

/-- What a name stands for: the item of the innermost loop with that variable, or the whole loan
under its own name where no loop has taken it. -/
inductive Binds (scope : Scope) (name : String) : Value → Prop
  | loop (inner outer : List (String × Value)) {item : Value}
      (h : scope.frames = inner ++ (name, item) :: outer) (hn : name ∉ inner.map Prod.fst) :
      Binds scope name item
  | root (h : name = scope.rootName) (hn : name ∉ scope.frames.map Prod.fst) :
      Binds scope name scope.root

/-- Every name in scope stands for something, and that is what it is looked up as. -/
theorem exists_binds (h : name ∈ scope.names) :
    ∃ value, scope.Binds name value ∧ scope.binding? name = some value := by
  obtain ⟨rootName, root, frames⟩ := scope
  rw [names] at h
  induction frames with
  | nil =>
    obtain rfl : name = rootName := List.mem_singleton.mp h
    exact ⟨root, .root rfl List.not_mem_nil, by simp [binding?, Table.find?]⟩
  | cons frame frames ih =>
    obtain ⟨other, item⟩ := frame
    by_cases ho : other = name
    · subst ho
      exact ⟨item, .loop [] frames rfl List.not_mem_nil, by simp [binding?, Table.find?]⟩
    · have hm : name ∈ frames.map Prod.fst ++ [rootName] :=
        (List.mem_cons.mp h).resolve_left (Ne.symm ho)
      obtain ⟨value, hb, hf⟩ := ih hm
      have hf' : binding? ⟨rootName, root, (other, item) :: frames⟩ name = some value := by
        rw [binding?, List.cons_append, Table.find?, if_neg ho]
        exact hf
      -- One more loop in front, with another variable, takes nothing away.
      have hnot : ∀ {inner : List (String × Value)}, name ∉ inner.map Prod.fst →
          name ∉ ((other, item) :: inner).map Prod.fst := by
        intro inner hn
        rw [List.map_cons, List.mem_cons, not_or]
        exact ⟨Ne.symm ho, hn⟩
      cases hb with
      | loop inner outer h hn =>
        exact ⟨_, .loop ((other, item) :: inner) outer (congrArg _ h) (hnot hn), hf'⟩
      | root h hn => exact ⟨root, .root h (hnot hn), hf'⟩

/-- Where a path leads that begins with a name in scope. -/
theorem resolveSegments_of_binding? {value : Value} (h : scope.binding? name = some value)
    (more : List String) :
    scope.resolveSegments (name :: more) = (value.descend more).elim .missing .found := by
  rw [resolveSegments, h]
  simp only
  cases value.descend more <;> rfl

end Scope

namespace Condition

/-! ## Marks -/

/-- Every mark outside of quotes stands in front of a word that is one of the names. The quote that
is open is given. -/
def MarksOnly (names : List String) : Option Char → List Char → Prop
  | _, [] => True
  | some quote, c :: rest => MarksOnly names (if c = quote then none else some quote) rest
  | none, c :: rest =>
    (c = '@' → String.ofList (rest.takeWhile Text.isIdentifierPart) ∈ names) ∧
      MarksOnly names (if isQuote c then some c else none) rest

section

variable {names : List String} {before : Option Char} {cs w rest : List Char}

/-- Marking does not cut short the word that it is inside of. -/
theorem takeWhile_mark (hb : before.any joinsWord = true) (cs : List Char) :
    (mark names none before cs).takeWhile Text.isIdentifierPart =
      cs.takeWhile Text.isIdentifierPart := by
  induction cs generalizing before with
  | nil => rw [mark]
  | cons c cs ih =>
    cases hp : Text.isIdentifierPart c with
    | true =>
      have hq : isQuote c = false := isQuote_of_isOrdinary (isOrdinary_of_isIdentifierPart hp)
      have hc : (some c).any joinsWord = true := joinsWord_of_isIdentifierPart hp
      rw [mark_of_not_start hq (.inr hb), List.takeWhile_cons_of_pos hp,
        List.takeWhile_cons_of_pos hp, ih hc]
    | false =>
      have hstart : Text.isIdentifierStart c = false := by
        by_contra hs
        rw [Bool.not_eq_false] at hs
        rw [isIdentifierPart_of_isIdentifierStart hs] at hp
        cases hp
      rw [List.takeWhile_cons_of_neg (by rw [hp]; decide), mark]
      split <;> simp [hstart, hp]

/-- Marking marks only names. -/
theorem marksOnly_mark {quote : Option Char} (h : '@' ∉ cs) (before : Option Char) :
    MarksOnly names quote (mark names quote before cs) := by
  induction cs generalizing quote before with
  | nil => rw [mark]; trivial
  | cons c cs ih =>
    rw [List.mem_cons, not_or] at h
    cases quote with
    | some quote =>
      rw [mark, MarksOnly]
      exact ih h.2 _
    | none =>
      have hc : c = '@' → String.ofList ((mark names none (some c) cs).takeWhile
          Text.isIdentifierPart) ∈ names := fun he ↦ absurd he.symm h.1
      rw [mark]
      split
      · next hq =>
        rw [MarksOnly, if_pos hq]
        exact ⟨fun he ↦ absurd he.symm h.1, ih h.2 _⟩
      · next hq =>
        have hrest : MarksOnly names none (c :: mark names none (some c) cs) := by
          rw [MarksOnly, if_neg hq]
          exact ⟨hc, ih h.2 _⟩
        split
        · next hw =>
          rw [Bool.and_eq_true, Bool.and_eq_true] at hw
          obtain ⟨⟨hs, -⟩, hn⟩ := hw
          have hp : Text.isIdentifierPart c = true := isIdentifierPart_of_isIdentifierStart hs
          have hb : (some c).any joinsWord = true := joinsWord_of_isIdentifierPart hp
          rw [MarksOnly, if_neg (by decide)]
          refine ⟨fun _ ↦ ?_, hrest⟩
          rw [List.takeWhile_cons_of_pos hp, takeWhile_mark hb, ← List.takeWhile_cons_of_pos hp]
          simpa using hn
        · exact hrest

/-- Characters that are neither marks nor quotes may stand in front. -/
theorem MarksOnly.of_append (hw : ∀ c ∈ w, isQuote c = false)
    (h : MarksOnly names none (w ++ rest)) : MarksOnly names none rest := by
  induction w with
  | nil => exact h
  | cons c w ih =>
    rw [List.forall_mem_cons] at hw
    rw [List.cons_append, MarksOnly, if_neg (by rw [hw.1]; decide)] at h
    exact ih hw.2 h.2

/-- What stands between quotes does not count. -/
theorem MarksOnly.of_quoted {quote : Char} {body : List Char} (hq : isQuote quote = true)
    (hb : quote ∉ body) (h : MarksOnly names none (quote :: body ++ [quote] ++ rest)) :
    MarksOnly names none rest := by
  have hin : MarksOnly names (some quote) (body ++ quote :: rest) := by
    rw [List.append_assoc, List.singleton_append, List.cons_append, MarksOnly, if_pos hq] at h
    exact h.2
  clear h
  induction body with
  | nil => simpa [MarksOnly] using hin
  | cons c body ih =>
    rw [List.mem_cons, not_or] at hb
    rw [List.cons_append, MarksOnly, if_neg (Ne.symm hb.1)] at hin
    exact ih hb.2 hin

end

/-! ## Paths -/

section

variable {names : List String} {token : Token} {tokens : List Token} {w rest cs : List Char}

/-- A row of tokens goes on behind each of them with marks in front of names only. -/
theorem Token.Written.marksOnly (h : token.Written w rest)
    (hm : MarksOnly names none (w ++ rest)) : MarksOnly names none rest := by
  cases h with
  | sign h => exact hm.of_append fun c hc ↦ (not_start_of_mem_strictSigns h c hc).1
  | word h hl =>
    exact hm.of_append fun c hc ↦ isQuote_of_isOrdinary (isOrdinary_of_mem_reserved h hl c hc)
  | number h => exact hm.of_append fun c hc ↦ isQuote_of_isOrdinary (h.isOrdinary c hc)
  | text hq hb => exact hm.of_quoted hq hb
  | path h =>
    refine hm.of_append fun c hc ↦ ?_
    rcases List.mem_cons.mp hc with rfl | hc
    · decide
    · exact isQuote_of_isOrdinary (isOrdinary_of_mem_dotted h c hc)

/-- The word in front of a path is its first segment. -/
theorem takeWhile_dotted {head : String} {more : List String}
    (h : ∀ segment ∈ head :: more, Text.isIdentifier segment.toList = true)
    (hr : rest.head?.any Text.isIdentifierPart = false) :
    (dotted head more ++ rest).takeWhile Text.isIdentifierPart = head.toList := by
  obtain ⟨-, -, -, -, hp⟩ := exists_of_isIdentifier (h head List.mem_cons_self)
  cases more with
  | nil => exact takeWhile_append_of_head? hp hr
  | cons next more =>
    rw [dotted, List.append_assoc]
    exact takeWhile_append_of_head? hp rfl

/-- A path that is marked as a name begins with it. -/
theorem Token.Written.head_mem {segments : List String}
    (h : (Token.path segments).Written w rest) (hm : MarksOnly names none (w ++ rest)) :
    ∃ head more, segments = head :: more ∧ head ∈ names := by
  cases h with
  | sign h => simp [strictSigns] at h
  | word h => simp [reservedWords] at h
  | @path head more _ h hr =>
    rw [List.cons_append, MarksOnly] at hm
    have hword := hm.1 rfl
    rw [takeWhile_dotted h hr.1, String.ofList_toList] at hword
    exact ⟨head, more, rfl, hword⟩

/-- In a row of tokens with marks in front of names only, each path begins with a name. -/
theorem Row.head_mem (h : Row tokens cs) (hm : MarksOnly names none cs) {segments : List String}
    (hp : .path segments ∈ tokens) : ∃ head more, segments = head :: more ∧ head ∈ names := by
  induction h with
  | nil => cases hp
  | @cons token tokens gap w rest hg hw h ih =>
    rw [List.append_assoc] at hm
    have hw' := hm.of_append fun c hc ↦ isQuote_of_isOrdinary (isOrdinary_of_mem_gap hg c hc)
    rcases List.mem_cons.mp hp with rfl | hp
    · exact hw.head_mem hw'
    · exact ih (hw.marksOnly hw') hp

/-- The paths of a condition are among the tokens that write it. -/
theorem Writes.path_mem {level : Level} {e : Expr} (h : Writes level e tokens) :
    ∀ path ∈ e.paths, .path path ∈ tokens := by
  induction h with
  | literal => exact List.forall_mem_nil _
  | path segments => simp [Expr.paths]
  | parens _ ih =>
    intro path hp
    simp [ih path hp]
  | operand _ ih | comparison _ ih | negation _ ih | conjunction _ ih => exact ih
  | not _ ih => exact fun path hp ↦ List.mem_cons_of_mem _ (ih path hp)
  | compare _ _ _ ihl ihr | and _ _ ihl ihr | or _ _ ihl ihr =>
    intro path hp
    rcases List.mem_append.mp hp with hp | hp
    · exact List.mem_append_left _ (ihl path hp)
    · exact List.mem_append_right _ (List.mem_cons_of_mem _ (ihr path hp))

/-- Where nothing is marked before qualifying, each path begins with a name. -/
theorem head_mem_of_parse?_qualify {e : Expr} (h : '@' ∉ cs)
    (hp : parse? (qualify names cs) = some e) :
    ∀ path ∈ e.paths, ∃ head more, path = head :: more ∧ head ∈ names := by
  intro path hm
  obtain ⟨tokens, hrow, -, hw⟩ := exists_of_parse?_eq_some hp
  exact hrow.head_mem (marksOnly_mark h none) (hw.path_mem path hm)

end

/-- Normalizing puts no marks. -/
theorem mark_notMem_normalize {cs : List Char} (h : '@' ∉ cs) : '@' ∉ normalize cs := by
  intro hm
  rcases mem_relax hm with hm | hm | hm
  · obtain ⟨c, hc, hf⟩ := List.mem_map.mp hm
    have he : c = '@' := by
      rw [foldQuote] at hf
      split at hf
      · cases hf
      · split at hf
        · cases hf
        · exact hf
    exact h (he ▸ hc)
  · cases hm
  · cases hm

/-! ## Evaluation -/

/-- What fails in two steps fails in the first or behind it. -/
theorem of_bind_eq_error {α β : Type} {first : Except Failure α} {next : α → Except Failure β}
    {failure : Failure} (h : first >>= next = .error failure) :
    first = .error failure ∨ ∃ a, next a = .error failure := by
  cases first with
  | error other =>
    obtain rfl : other = failure := Except.error.inj h
    exact .inl rfl
  | ok a => exact .inr ⟨a, h⟩

/-- Why evaluating a condition with these paths may fail in a scope: a path begins with no name
there, or two values or their kinds do not fit. -/
def Failure.Arises (scope : Scope) (paths : List (List String)) : Failure → Prop
  | .illFormed _ => False
  | .unbound text =>
    ∃ path ∈ paths, scope.resolveSegments path = .unqualified ∧ text = ".".intercalate path
  | .notBoolean _ | .incomparable _ _ => True

section

variable {scope : Scope} {failure : Failure} {paths more : List (List String)}

theorem Failure.Arises.mono (h : failure.Arises scope paths) (hs : paths ⊆ more) :
    failure.Arises scope more := by
  cases failure with
  | illFormed => exact h
  | unbound text =>
    obtain ⟨path, hp, hr⟩ := h
    exact ⟨path, hs hp, hr⟩
  | notBoolean => trivial
  | incomparable => trivial

theorem arises_of_truth {value : Value} (h : truth value = .error failure) :
    failure.Arises scope paths := by
  cases value <;> cases h <;> trivial

theorem arises_of_holdsBetween {comparison : Comparison} {a b : Value}
    (h : holdsBetween comparison a b = .error failure) : failure.Arises scope paths := by
  revert h
  fun_cases holdsBetween comparison a b <;> rintro ⟨⟩
  trivial

/-- Where the truth value of a part is asked for, evaluation fails in that part or behind it. -/
theorem arises_or_of_flag {part : Expr} {next : Bool → Except Failure Value}
    (hpart : ∀ {failure}, part.eval scope = .error failure → failure.Arises scope paths)
    (h : (part.eval scope >>= fun value ↦ truth value >>= next) = .error failure) :
    failure.Arises scope paths ∨ ∃ flag, next flag = .error failure := by
  rcases of_bind_eq_error h with h | ⟨value, h⟩
  · exact .inl (hpart h)
  · exact (of_bind_eq_error h).imp_left arises_of_truth

/-- Evaluation fails for no other reasons. -/
theorem Expr.arises_of_eval {e : Expr} (h : e.eval scope = .error failure) :
    failure.Arises scope e.paths := by
  induction e generalizing failure with
  | literal => cases h
  | path segments =>
    rw [eval] at h
    split at h <;> cases h
    next hr => exact ⟨segments, List.mem_singleton_self _, hr, rfl⟩
  | not operand ih =>
    rw [eval] at h
    rcases arises_or_of_flag ih h with h | ⟨flag, ⟨⟩⟩
    exact h
  | and left right ihl ihr =>
    rw [eval] at h
    rcases arises_or_of_flag ihl h with h | ⟨_ | _, h⟩
    · exact h.mono (List.subset_append_left _ _)
    · cases h
    · rcases arises_or_of_flag ihr h with h | ⟨flag, ⟨⟩⟩
      exact h.mono (List.subset_append_right _ _)
  | or left right ihl ihr =>
    rw [eval] at h
    rcases arises_or_of_flag ihl h with h | ⟨_ | _, h⟩
    · exact h.mono (List.subset_append_left _ _)
    · rcases arises_or_of_flag ihr h with h | ⟨flag, ⟨⟩⟩
      exact h.mono (List.subset_append_right _ _)
    · cases h
  | compare left comparison right ihl ihr =>
    rw [eval] at h
    rcases of_bind_eq_error h with h | ⟨a, h⟩
    · exact (ihl h).mono (List.subset_append_left _ _)
    · rcases of_bind_eq_error h with h | ⟨b, h⟩
      · exact (ihr h).mono (List.subset_append_right _ _)
      · rcases of_bind_eq_error h with h | ⟨flag, ⟨⟩⟩
        exact arises_of_holdsBetween h

end

/-- Whatever the names in scope, each path of a condition without marks of its own begins with one
of them. It leads on from what that name stands for, the innermost loop first, so evaluation gives a
truth value or fails for another reason than a name that is not bound. -/
theorem evaluate_bound (scope : Scope) {condition : String} (h : '@' ∉ condition.toList) :
    (∀ e, parse? (strictSpelling scope condition) = some e → ∀ path ∈ e.paths,
      ∃ head more value, path = head :: more ∧ head ∈ scope.names ∧ scope.Binds head value ∧
        scope.binding? head = some value ∧
        scope.resolveSegments path = (value.descend more).elim .missing .found) ∧
    ((∃ flag, evaluate scope condition = .ok flag) ∨
      evaluate scope condition = .error (.illFormed condition) ∨
      (∃ kind, evaluate scope condition = .error (.notBoolean kind)) ∨
      ∃ left right, evaluate scope condition = .error (.incomparable left right)) := by
  have hpaths : ∀ e, parse? (strictSpelling scope condition) = some e → ∀ path ∈ e.paths,
      ∃ head more value, path = head :: more ∧ head ∈ scope.names ∧ scope.Binds head value ∧
        scope.binding? head = some value ∧
        scope.resolveSegments path = (value.descend more).elim .missing .found := by
    intro e he path hp
    obtain ⟨head, more, rfl, hm⟩ :=
      head_mem_of_parse?_qualify (mark_notMem_normalize h) he path hp
    obtain ⟨value, hb, hf⟩ := Scope.exists_binds hm
    exact ⟨head, more, value, rfl, hm, hb, hf, Scope.resolveSegments_of_binding? hf more⟩
  refine ⟨hpaths, ?_⟩
  cases hp : parse? (strictSpelling scope condition) with
  | none => exact .inr (.inl (by rw [evaluate, hp]))
  | some e =>
    have hev : evaluate scope condition = e.eval scope >>= truth := by rw [evaluate, hp]
    cases hr : evaluate scope condition with
    | ok flag => exact .inl ⟨flag, rfl⟩
    | error failure =>
      have harises : failure.Arises scope e.paths := by
        rcases of_bind_eq_error (hev.symm.trans hr) with h | ⟨value, h⟩
        · exact Expr.arises_of_eval h
        · exact arises_of_truth h
      cases failure with
      | illFormed => exact harises.elim
      | unbound text =>
        -- Each path leads on from what its first name stands for.
        obtain ⟨path, hm, hu, -⟩ := harises
        obtain ⟨head, more, value, rfl, -, -, -, he⟩ := hpaths e hp path hm
        rw [he] at hu
        cases hd : value.descend more <;> rw [hd] at hu <;> cases hu
      | notBoolean kind => exact .inr (.inr (.inl ⟨kind, rfl⟩))
      | incomparable left right => exact .inr (.inr (.inr ⟨left, right, rfl⟩))

/-- Inside two loops with the same variable the inner one is meant, and the word between quotes is
no reference. -/
theorem evaluate_bound_shadowed :
    let scope : Scope := ⟨"Loan", .null, [("party", .text "Loan"), ("party", .null)]⟩
    let condition := "party = 'Loan'"
    let e : Expr := .compare (.path ["party"]) .equal (.literal (.text "Loan"))
    '@' ∉ condition.toList ∧ parse? (strictSpelling scope condition) = some e ∧
      scope.Binds "party" (.text "Loan") ∧ evaluate scope condition = .ok true := by
  intro scope condition e
  have h : '@' ∉ condition.toList := by decide
  have hs : Token.scan? (strictSpelling scope condition) =
      some [.path ["party"], .compare .equal, .literal (.text "Loan")] := by decide +kernel
  have hw : Writes .disjunction e [.path ["party"], .compare .equal, .literal (.text "Loan")] :=
    .conjunction (.negation (.comparison (.compare .equal (.path ["party"])
      (.literal (.text "Loan")))))
  have hp := parse?_eq_some_iff.2 ⟨_, hs, hw⟩
  obtain ⟨hpaths, -⟩ := evaluate_bound scope h
  obtain ⟨head, more, value, hpath, -, hb, hf, -⟩ := hpaths e hp ["party"] (by decide)
  obtain ⟨rfl, rfl⟩ := List.cons.inj hpath
  obtain rfl : Value.text "Loan" = value := Option.some.inj hf
  exact ⟨h, hp, hb, (evaluate_of_writes hs hw).trans rfl⟩

end Condition

end LoanClosing
