import LoanClosing.Proofs.Condition.Bound
import LoanClosing.Proofs.Condition.TextEquality

/-!
# A condition that is already rewritten

Normalizing and marking leave nothing behind that they would rewrite. What is left to rewrite can be
told from a character, the one before it and what follows it. For each of the two a predicate says
that no such place is left outside of quotes: the result has it, what has it stays as it is, and
marks do not come between the characters of an operator.
-/

namespace LoanClosing.Condition

/-! ## Operators -/

/-- No operator outside of quotes is left to rewrite: each equals sign belongs to a character next
to it, and no `<` has a `>` right behind it. The quote that is open and the character before are
given. -/
def IsUniform : Option Char → Option Char → List Char → Prop
  | _, _, [] => True
  | some quote, _, c :: rest => IsUniform (if c = quote then none else some quote) (some c) rest
  | none, before, c :: rest =>
    (c = '=' → before.any joinsEquals = true ∨ rest.head? = some '=') ∧
      (c = '<' → rest.head? ≠ some '>') ∧
      IsUniform (if isQuote c then some c else none) (some c) rest

section

variable {names : List String} {quote before before' : Option Char} {c sign : Char}
  {rest : List Char}

theorem isUniform_equals : IsUniform none before ('=' :: rest) ↔
    (before.any joinsEquals = true ∨ rest.head? = some '=') ∧
      IsUniform none (some '=') rest := by
  rw [IsUniform]
  simp [isQuote]

theorem isUniform_less : IsUniform none before ('<' :: rest) ↔
    rest.head? ≠ some '>' ∧ IsUniform none (some '<') rest := by
  rw [IsUniform]
  simp [isQuote]

theorem isUniform_other (he : c ≠ '=') (hl : c ≠ '<') : IsUniform none before (c :: rest) ↔
    IsUniform (if isQuote c then some c else none) (some c) rest := by
  rw [IsUniform]
  simp [he, hl]

theorem isUniform_quote (hq : isQuote c = true) : IsUniform none before (c :: rest) ↔
    IsUniform (some c) (some c) rest := by
  have hne {sign : Char} (hs : isQuote sign = false) : c ≠ sign :=
    ne_of_apply_ne isQuote (by rw [hq, hs]; decide)
  rw [isUniform_other (hne rfl) (hne rfl), if_pos hq]

/-- What has no operator left to rewrite stays. -/
theorem relax_of_isUniform {cs : List Char} (h : IsUniform quote before cs) :
    relax quote before cs = cs := by
  induction cs generalizing quote before with
  | nil => rw [relax]
  | cons c rest ih =>
    cases quote with
    | some quote =>
      rw [IsUniform] at h
      rw [relax, ih h]
    | none =>
      by_cases hl : c = '<'
      · subst hl
        rw [isUniform_less] at h
        rw [relax_less h.1, ih h.2]
      by_cases he : c = '='
      · subst he
        rw [isUniform_equals] at h
        rw [relax_equals h.1, ih h.2]
      cases hq : isQuote c with
      | true =>
        rw [isUniform_quote hq] at h
        rw [relax_quote hq, ih h]
      | false =>
        rw [isUniform_other he hl, hq, if_neg Bool.false_ne_true] at h
        rw [relax_other hq hl he, ih h]

/-- Rewriting operators puts an equals sign or a `>` in front only where there is one. -/
theorem head?_relax_eq_some_iff (hn : sign ≠ '!') (hl : sign ≠ '<') (cs : List Char) :
    (relax none before cs).head? = some sign ↔ cs.head? = some sign := by
  cases cs with
  | nil => rw [relax]
  | cons c rest =>
    unfold relax
    split
    · rfl
    · split
      · simp [hn.symm, hl.symm]
      · split
        · next hc =>
          rw [Bool.and_eq_true, Bool.and_eq_true, decide_eq_true_eq] at hc
          rw [hc.1.1, List.head?_cons, List.head?_cons]
        · rfl

/-- Rewriting operators leaves none to rewrite. What was written before joins an equals sign if what
was read there does. -/
theorem isUniform_relax (hb : before.any joinsEquals = true → before'.any joinsEquals = true)
    (cs : List Char) : IsUniform quote before' (relax quote before cs) := by
  fun_induction relax quote before cs generalizing before' with
  | case1 => rw [IsUniform]; trivial
  | case2 quote before c rest ih => exact ih id
  | case3 before c rest hq ih => exact (isUniform_quote hq).2 (ih id)
  | case4 before rest hq ih =>
    -- The `>` that is read and the `=` that is written in its place both join.
    rw [isUniform_other (by decide) (by decide), if_neg (by decide), isUniform_equals]
    exact ⟨.inl rfl, ih fun _ ↦ rfl⟩
  | case5 before c rest hx hcond hq ih =>
    rw [Bool.and_eq_true, Bool.and_eq_true, decide_eq_true_eq] at hcond
    obtain ⟨⟨rfl, -⟩, -⟩ := hcond
    rw [isUniform_equals, isUniform_equals]
    exact ⟨.inr rfl, .inl rfl, ih id⟩
  | case6 before c rest hx hcond hq ih =>
    by_cases hl : c = '<'
    · subst hl
      rw [isUniform_less, Ne, head?_relax_eq_some_iff (by decide) (by decide)]
      refine ⟨fun hh ↦ ?_, ih id⟩
      obtain ⟨more, rfl⟩ := List.head?_eq_some_iff.1 hh
      exact hx more rfl rfl
    by_cases he : c = '='
    · subst he
      have hjoined : before.any joinsEquals = true ∨ rest.head? = some '=' := by
        simpa [or_iff_not_imp_right] using hcond
      rw [isUniform_equals, head?_relax_eq_some_iff (by decide) (by decide)]
      exact ⟨hjoined.imp_left hb, ih id⟩
    rw [isUniform_other he hl, if_neg hq]
    exact ih id

/-- Marking puts nothing but marks in front, and those only where a word begins. -/
theorem head?_mark_eq_some_iff (hm : sign ≠ '@') (hs : Text.isIdentifierStart sign = false)
    (cs : List Char) : (mark names none before cs).head? = some sign ↔ cs.head? = some sign := by
  cases cs with
  | nil => rw [mark]
  | cons c rest =>
    rw [mark]
    split
    · rfl
    · split
      · next hc =>
        rw [Bool.and_eq_true, Bool.and_eq_true] at hc
        have hne : c ≠ sign :=
          ne_of_apply_ne Text.isIdentifierStart (by rw [hs, hc.1.1]; decide)
        simp [hm.symm, hne]
      · rfl

/-- Marking leaves no operator to rewrite: a mark comes in front of a word only. -/
theorem isUniform_mark (hb : before.any joinsEquals = true → before'.any joinsEquals = true)
    {cs : List Char} (h : IsUniform quote before cs) :
    IsUniform quote before' (mark names quote before cs) := by
  fun_induction mark names quote before cs generalizing before' with
  | case1 => rw [IsUniform]; trivial
  | case2 quote before c rest ih => exact ih id h
  | case3 before c rest hq ih =>
    rw [isUniform_quote hq] at h ⊢
    exact ih id h
  | case4 before c rest hq hcond ih =>
    rw [Bool.and_eq_true, Bool.and_eq_true] at hcond
    have hne {sign : Char} (hs : Text.isIdentifierStart sign = false) : c ≠ sign :=
      ne_of_apply_ne Text.isIdentifierStart (by rw [hs, hcond.1.1]; decide)
    rw [isUniform_other (hne rfl) (hne rfl), if_neg hq] at h
    rw [isUniform_other (by decide) (by decide), if_neg (by decide),
      isUniform_other (hne rfl) (hne rfl), if_neg hq]
    exact ih id h
  | case5 before c rest hq hcond ih =>
    by_cases hl : c = '<'
    · subst hl
      rw [isUniform_less] at h
      rw [isUniform_less, Ne, head?_mark_eq_some_iff (by decide) (by decide)]
      exact ⟨h.1, ih id h.2⟩
    by_cases he : c = '='
    · subst he
      rw [isUniform_equals] at h
      rw [isUniform_equals, head?_mark_eq_some_iff (by decide) (by decide)]
      exact ⟨h.1.imp_left hb, ih id h.2⟩
    rw [isUniform_other he hl, if_neg hq] at h
    rw [isUniform_other he hl, if_neg hq]
    exact ih id h

end

/-! ## Normal conditions -/

/-- A condition in which nothing is left to normalize: it has no typographic quotes, and its
operators are in one spelling. -/
structure IsNormal (cs : List Char) : Prop where
  quotes : ∀ c ∈ cs, c ∉ typographicQuotes.map Prod.snd
  operators : IsUniform none none cs

/-- Marking writes no other characters than marks. -/
theorem mem_mark {names : List String} {quote before : Option Char} {cs : List Char} {c : Char}
    (h : c ∈ mark names quote before cs) : c ∈ cs ∨ c = '@' := by
  revert h
  fun_induction mark names quote before cs with
  | case1 => exact .inl
  | _ => grind

section

variable {cs : List Char}

theorem IsNormal.normalize_eq (h : IsNormal cs) : normalize cs = cs := by
  have hfold : cs.map foldQuote = cs :=
    map_foldQuote fun c hc ↦ foldQuote_of_notMem (h.quotes c hc)
  rw [normalize, hfold, relax_of_isUniform h.operators]

theorem isNormal_normalize (cs : List Char) : IsNormal (normalize cs) where
  quotes c hc := by
    rcases mem_relax hc with hm | rfl | rfl
    · obtain ⟨d, -, rfl⟩ := List.mem_map.1 hm
      exact foldQuote_notMem d
    · decide
    · decide
  operators := isUniform_relax id _

theorem IsNormal.qualify (h : IsNormal cs) (names : List String) : IsNormal (qualify names cs) where
  quotes c hc := by
    rcases mem_mark hc with hm | rfl
    · exact h.quotes c hm
    · decide
  operators := isUniform_mark id h.operators

end

/-! ## Marks -/

/-- No word outside of quotes is left to mark: none of them that begins where no word, number or
path goes on is one of the names. The quote that is open and the character before are given. -/
def IsMarked (names : List String) : Option Char → Option Char → List Char → Prop
  | _, _, [] => True
  | some quote, _, c :: rest =>
    IsMarked names (if c = quote then none else some quote) (some c) rest
  | none, before, c :: rest =>
    (Text.isIdentifierStart c = true → before.any joinsWord = false →
        String.ofList ((c :: rest).takeWhile Text.isIdentifierPart) ∉ names) ∧
      IsMarked names (if isQuote c then some c else none) (some c) rest

section

variable {names : List String} {quote before : Option Char}

/-- What has no word left to mark stays. -/
theorem mark_of_isMarked {cs : List Char} (h : IsMarked names quote before cs) :
    mark names quote before cs = cs := by
  fun_induction mark names quote before cs with
  | case1 => rfl
  | case2 quote before c rest ih => rw [ih h]
  | case3 before c rest hq ih =>
    rw [IsMarked, if_pos hq] at h
    rw [ih h.2]
  | case4 before c rest hq hcond ih =>
    rw [Bool.and_eq_true, Bool.and_eq_true, Bool.not_eq_true', List.contains_iff_mem] at hcond
    exact absurd hcond.2 (h.1 hcond.1.1 hcond.1.2)
  | case5 before c rest hq hcond ih =>
    rw [IsMarked, if_neg hq] at h
    rw [ih h.2]

/-- Marking leaves no word to mark: behind a mark no word begins, and inside of a word there is
none. -/
theorem isMarked_mark (cs : List Char) :
    IsMarked names quote before (mark names quote before cs) := by
  fun_induction mark names quote before cs with
  | case1 => rw [IsMarked]; trivial
  | case2 quote before c rest ih => exact ih
  | case3 before c rest hq ih =>
    rw [IsMarked, if_pos hq]
    refine ⟨fun hs ↦ ?_, ih⟩
    have ho := isOrdinary_of_isIdentifierPart (isIdentifierPart_of_isIdentifierStart hs)
    exact absurd (hq.symm.trans (isQuote_of_isOrdinary ho)) (by decide)
  | case4 before c rest hq hcond ih =>
    rw [IsMarked, if_neg (by decide), IsMarked, if_neg hq]
    exact ⟨fun hs ↦ absurd hs (by decide), fun _ hj ↦ absurd hj (by decide), ih⟩
  | case5 before c rest hq hcond ih =>
    rw [IsMarked, if_neg hq]
    refine ⟨fun hs hj hm ↦ hcond ?_, ih⟩
    have hp := isIdentifierPart_of_isIdentifierStart hs
    have hjoins : (some c).any joinsWord = true := joinsWord_of_isIdentifierPart hp
    have hword : (c :: mark names none (some c) rest).takeWhile Text.isIdentifierPart =
        (c :: rest).takeWhile Text.isIdentifierPart := by
      rw [List.takeWhile_cons_of_pos hp, List.takeWhile_cons_of_pos hp, takeWhile_mark hjoins]
    rw [hword] at hm
    simpa [hs, hj] using hm

end

/-- A condition that has been rewritten is not rewritten again: not by normalizing, not by marking,
and not by both of them, since marking keeps it normal and nothing is left to do for either. -/
theorem rewritten_once (names : List String) (cs : List Char) :
    normalize (normalize cs) = normalize cs ∧
      qualify names (qualify names cs) = qualify names cs ∧
      IsNormal (qualify names (normalize cs)) ∧
      IsMarked names none none (qualify names (normalize cs)) ∧
      normalize (qualify names (normalize cs)) = qualify names (normalize cs) ∧
      qualify names (normalize (qualify names (normalize cs))) = qualify names (normalize cs) := by
  have hnormal : IsNormal (normalize cs) := isNormal_normalize cs
  have hboth : IsNormal (qualify names (normalize cs)) := hnormal.qualify names
  have honce (cs : List Char) : qualify names (qualify names cs) = qualify names cs :=
    mark_of_isMarked (isMarked_mark cs)
  refine ⟨hnormal.normalize_eq, honce cs, hboth, isMarked_mark _, hboth.normalize_eq, ?_⟩
  rw [hboth.normalize_eq, honce]

/-- Operators that stand next to each other are rewritten one by one. -/
example : normalize "a <>= b =<> c === d".toList = "a !== b ==!= c === d".toList := by
  decide +kernel

end LoanClosing.Condition
