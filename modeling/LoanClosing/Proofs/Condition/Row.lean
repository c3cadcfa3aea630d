import LoanClosing.Proofs.Condition.Scan
import Mathlib.Data.List.TakeWhile

/-!
# Rows of tokens

`Row tokens cs` says that a text is the tokens one behind the other, with gaps anywhere; nothing is
said about which tokens the scanner prefers. Whatever the scanner finds is such a row, and a row in
which operands and signs take turns is the one that it finds.
-/

namespace LoanClosing.Condition

/-- A path cannot go on with what stands behind it. -/
def EndsPath (rest : List Char) : Prop :=
  rest.head?.any Text.isIdentifierPart = false ∧
    ∀ c more, rest = '.' :: c :: more → Text.isIdentifierStart c = false

/-- The characters that write a token in front of a rest. A word is not directly followed by a
character of an identifier and `!` not by an equals sign, a text ends at the next quote of its kind,
and a path is as long as it can be. -/
inductive Token.Written : Token → List Char → List Char → Prop
  | sign {token : Token} {sign rest : List Char} (h : (sign, token) ∈ strictSigns)
      (hn : token = .not → rest.head? ≠ some '=') : Written token sign rest
  | word {token : Token} {word : String} {letters rest : List Char}
      (h : (word, token) ∈ reservedWords) (hl : letters.map Char.toLower = word.toList)
      (hr : rest.head?.any Text.isIdentifierPart = false) : Written token letters rest
  | number {amount : Decimal} {minus whole places rest : List Char}
      (h : IsNumeral minus whole places)
      (ha : Decimal.ofChars? (minus ++ whole ++ places) = some amount) :
      Written (.literal (.number amount)) (minus ++ whole ++ places) rest
  | text {quote : Char} {body rest : List Char} (hq : isQuote quote = true) (hb : quote ∉ body) :
      Written (.literal (.text (String.ofList body))) (quote :: body ++ [quote]) rest
  | path {head : String} {more : List String} {rest : List Char}
      (h : ∀ segment ∈ head :: more, Text.isIdentifier segment.toList = true)
      (hr : EndsPath rest) : Written (.path (head :: more)) ('@' :: dotted head more) rest

/-- The texts that are a row of tokens. -/
inductive Row : List Token → List Char → Prop
  | nil {gap : List Char} (hg : gap.all isGap = true) : Row [] gap
  | cons {token : Token} {tokens : List Token} {gap w rest : List Char}
      (hg : gap.all isGap = true) (hw : token.Written w rest) (h : Row tokens rest) :
      Row (token :: tokens) (gap ++ w ++ rest)

/-! ## What is a row is scanned -/

section

variable {rest tail : List Char}

/-- No character of an identifier comes to stand in front when a gap is put behind. -/
theorem any_isIdentifierPart_append (h : rest.head?.any Text.isIdentifierPart = false)
    (ht : tail.head?.all isGap = true) :
    (rest ++ tail).head?.any Text.isIdentifierPart = false := by
  cases rest with
  | cons c rest => exact h
  | nil =>
    cases tail with
    | nil => rfl
    | cons c tail => exact isIdentifierPart_of_isGap ht

theorem EndsPath.append_gap (h : EndsPath rest) (ht : tail.head?.all isGap = true) :
    EndsPath (rest ++ tail) := by
  refine ⟨any_isIdentifierPart_append h.1 ht, ?_⟩
  intro c more he
  -- The point and the character behind it stand in the rest, or a gap is one of them.
  rcases List.append_eq_cons_iff.1 he with ⟨rfl, rfl⟩ | ⟨rest', rfl, he⟩
  · cases ht
  · have he : rest' ++ tail = c :: more := (List.cons.inj he).2
    rcases List.append_eq_cons_iff.1 he with ⟨rfl, rfl⟩ | ⟨rest'', rfl, -⟩
    · exact isIdentifierStart_of_isGap ht
    · exact h.2 c rest'' rfl

end

namespace Token.Written

variable {token : Token} {w rest tail : List Char}

/-- All tokens but texts, which may hold typographic quotes, are spelled in the marked style. -/
theorem lexeme_or_text (h : token.Written w rest) :
    (∃ names, Lexeme .marked names token w ∧ Apart token w rest) ∨
      ∃ quote body, isQuote quote = true ∧ quote ∉ body ∧
        token = .literal (.text (String.ofList body)) ∧ w = quote :: body ++ [quote] := by
  cases h with
  | sign h =>
    have hall : ∀ p ∈ strictSigns, p.1.getLast?.any Text.isIdentifierPart = false := by decide
    exact .inl ⟨[], .sign h, .of_getLast? (hall _ h)⟩
  | word h hl hr => exact .inl ⟨[], .word h hl, .of_head? hr⟩
  | @number amount _ _ _ _ h ha =>
    exact .inl ⟨[], .number h ha, fun hn ↦ absurd rfl (hn amount)⟩
  | @path head more _ h hr =>
    exact .inl ⟨head :: more, .path List.mem_cons_self h, .of_head? hr.1⟩
  | text hq hb => exact .inr ⟨_, _, hq, hb, rfl, rfl⟩

/-- A token begins with a character that fits where it stands, not with a gap. -/
theorem exists_cons (h : token.Written w rest) :
    ∃ c more, w = c :: more ∧ isGap c = false ∧ Fits token.opens c := by
  obtain ⟨names, hw, -⟩ | ⟨quote, body, hq, -, rfl, rfl⟩ := h.lexeme_or_text
  · exact hw.exists_cons
  · refine ⟨quote, body ++ [quote], rfl, ?_⟩
    rw [isQuote, Bool.or_eq_true, beq_iff_eq, beq_iff_eq] at hq
    rcases hq with rfl | rfl <;> exact ⟨by decide, show Fits true _ by decide⟩

/-- The scanner takes a token whole and no more than it. -/
theorem next?_eq (h : token.Written w rest) (hr : Begins (!token.closes) rest) :
    ∃ c more, w = c :: more ∧ next? c (more ++ rest) = some (token, more.length) := by
  obtain ⟨names, hw, ha⟩ | ⟨quote, body, hq, hb, rfl, rfl⟩ := h.lexeme_or_text
  · exact hw.next?_eq ha hr
  · refine ⟨quote, body ++ [quote], rfl, ?_⟩
    rw [List.append_assoc, List.length_append]
    exact next?_text hq hb

/-- A gap may stand behind a token, also where it ends a text. -/
theorem append_gap (h : token.Written w rest) (ht : tail.head?.all isGap = true) :
    token.Written w (rest ++ tail) := by
  cases h with
  | sign h hn =>
    refine .sign h fun he hh ↦ ?_
    cases rest with
    | cons c rest => exact hn he hh
    | nil =>
      rw [List.nil_append] at hh
      rw [hh] at ht
      cases ht
  | word h hl hr => exact .word h hl (any_isIdentifierPart_append hr ht)
  | number h ha => exact .number h ha
  | text hq hb => exact .text hq hb
  | path h hr => exact .path h (hr.append_gap ht)

end Token.Written

section

variable {tokens : List Token} {cs tail : List Char} {awaited : Bool}

/-- A row begins with a gap, or with a character that fits where an operand does or does not come
next. -/
theorem Row.begins (h : Row tokens cs) (ht : TakesTurns awaited tokens) : Begins awaited cs := by
  cases h with
  | nil hg =>
    have hm : Begins awaited (cs ++ []) := .of_gap hg (by simp [Begins])
    rwa [List.append_nil] at hm
  | cons hg hw h =>
    rw [List.append_assoc]
    apply Begins.of_gap hg
    obtain ⟨c, more, rfl, -, hf⟩ := hw.exists_cons
    rintro d ⟨rfl⟩
    rw [← ht.1]
    exact hf

theorem Begins.append_gap (h : Begins awaited cs) (ht : tail.head?.all isGap = true) :
    Begins awaited (cs ++ tail) := by
  cases cs with
  | cons c cs => exact h
  | nil =>
    intro c hc
    rw [List.nil_append, Option.mem_def] at hc
    rw [hc] at ht
    exact fits_of_isGap ht awaited

/-- In front of a gap the scanner finds the tokens of a row in which operands and signs take turns,
and goes on behind it. -/
theorem Row.scan?_append (h : Row tokens cs) (ht : TakesTurns awaited tokens) (tail : List Char)
    (htail : tail.head?.all isGap = true) :
    Token.scan? (cs ++ tail) = (Token.scan? tail).map (tokens ++ ·) := by
  induction h generalizing awaited with
  | nil hg => rw [scan?_gap hg, Option.map_congr fun _ _ ↦ List.nil_append _, Option.map_id']
  | @cons token tokens gap w rest hg hw h ih =>
    obtain ⟨-, ht⟩ := ht
    have hb : Begins (!token.closes) (rest ++ tail) := (h.begins ht).append_gap htail
    obtain ⟨c, more, rfl, hnext⟩ := (hw.append_gap htail).next?_eq hb
    have hc : isGap c = false := by
      obtain ⟨d, _, he, hd, -⟩ := hw.exists_cons
      obtain ⟨rfl, -⟩ := List.cons.inj he
      exact hd
    simp only [List.append_assoc]
    rw [scan?_gap hg, List.cons_append, Token.scan?, if_neg (by rw [hc]; decide), hnext]
    simp only
    rw [List.drop_left, ih ht, Option.map_map]
    rfl

end

/-! ## What is scanned is a row -/

namespace Token

theorem nameLength_ne_zero {c : Char} (h : Text.isIdentifierStart c = true) (rest : List Char) :
    nameLength (c :: rest) ≠ 0 := by
  rw [nameLength, if_pos h]
  simp only
  split
  · split <;> omega
  · omega

/-- The identifier at the front of a text. -/
theorem isIdentifier_takeWhile {c : Char} (h : Text.isIdentifierStart c = true)
    (rest : List Char) :
    Text.isIdentifier (c :: rest.takeWhile Text.isIdentifierPart) = true := by
  rw [Text.isIdentifier, h, Bool.true_and, List.all_eq_true]
  exact fun d hd ↦ List.mem_takeWhile_imp hd

/-- What is taken for a path are identifiers with points between them, as many as there are. -/
theorem exists_of_nameLength_ne_zero {cs : List Char} (h : nameLength cs ≠ 0) :
    ∃ head more rest, cs = dotted head more ++ rest ∧
      (dotted head more).length = nameLength cs ∧
      (∀ segment ∈ head :: more, Text.isIdentifier segment.toList = true) ∧ EndsPath rest := by
  revert h
  fun_induction nameLength cs with
  | case1 | case5 => exact fun h ↦ absurd rfl h
  | case2 c rest hc part more hm _ hz => -- nothing that goes on behind a point
    intro _
    refine ⟨String.ofList (c :: part), [], '.' :: more, ?_, ?_, ?_, rfl, ?_⟩
    · rw [dotted, String.toList_ofList, ← hm, List.cons_append, List.takeWhile_append_dropWhile]
    · rw [dotted, String.toList_ofList, List.length_cons, Nat.add_comm]
    · rw [List.forall_mem_singleton, String.toList_ofList]
      exact isIdentifier_takeWhile hc rest
    · rintro d tail ⟨rfl⟩
      by_contra hd
      rw [Bool.not_eq_false] at hd
      exact nameLength_ne_zero hd tail hz
  | case3 c rest hc part more hm _ n hn ih => -- a point between two names
    intro _
    obtain ⟨next, others, behind, rfl, hl, hi, he⟩ := ih (by omega)
    refine ⟨String.ofList (c :: part), next :: others, behind, ?_, ?_, ?_, he⟩
    · rw [dotted, String.toList_ofList, List.append_assoc, List.cons_append (a := '.'), ← hm,
        List.cons_append, List.takeWhile_append_dropWhile]
    · rw [dotted, String.toList_ofList, List.length_append, List.length_cons, List.length_cons, hl]
      omega
    · rw [List.forall_mem_cons, String.toList_ofList]
      exact ⟨isIdentifier_takeWhile hc rest, hi⟩
  | case4 c rest hc part hm => -- no point behind the name
    intro _
    refine ⟨String.ofList (c :: part), [], rest.dropWhile Text.isIdentifierPart, ?_, ?_, ?_,
      any_head?_dropWhile _ _, ?_⟩
    · rw [dotted, String.toList_ofList, List.cons_append, List.takeWhile_append_dropWhile]
    · rw [dotted, String.toList_ofList, List.length_cons, Nat.add_comm]
    · rw [List.forall_mem_singleton, String.toList_ofList]
      exact isIdentifier_takeWhile hc rest
    · exact fun d tail he ↦ absurd he (hm _)

/-- What is taken for a number is one. -/
theorem exists_of_numberLength_ne_zero {cs : List Char} (h : numberLength cs ≠ 0) :
    ∃ whole places rest, cs = whole ++ places ++ rest ∧
      (whole ++ places).length = numberLength cs ∧ IsNumeral [] whole places := by
  have isDigits : ∀ {cs : List Char}, (cs.takeWhile Char.isDigit = [] → False) →
      IsDigits (cs.takeWhile Char.isDigit) :=
    fun hne ↦ ⟨hne, fun c hc ↦ List.mem_takeWhile_imp hc⟩
  have of_whole : (cs.takeWhile Char.isDigit = [] → False) → ∃ whole places rest,
      cs = whole ++ places ++ rest ∧
        (whole ++ places).length = (cs.takeWhile Char.isDigit).length ∧
        IsNumeral [] whole places := by
    intro hne
    refine ⟨_, [], cs.dropWhile Char.isDigit, ?_, ?_, .inl rfl, isDigits hne, .inl rfl⟩
    · rw [List.append_nil, List.takeWhile_append_dropWhile]
    · rw [List.append_nil]
  revert h
  fun_cases numberLength cs with
  | case1 => exact fun h ↦ absurd rfl h
  | case2 whole rest hp hz hne => exact fun _ ↦ of_whole hne
  | case3 whole rest hp hne hplaces =>
    intro _
    refine ⟨whole, '.' :: rest.takeWhile Char.isDigit, rest.dropWhile Char.isDigit, ?_, ?_,
      .inl rfl, isDigits hne, .inr ⟨_, rfl, isDigits hplaces⟩⟩
    · rw [List.append_assoc, List.cons_append, List.takeWhile_append_dropWhile, ← hp,
        List.takeWhile_append_dropWhile]
    · rw [List.length_append, List.length_cons]
      omega
  | case4 whole hne hp => exact fun _ ↦ of_whole hne

section

variable {c : Char} {rest : List Char} {token : Token} {taken : Nat}

theorem written_of_number {more behind minus whole places : List Char}
    (hn : IsNumeral minus whole places) (hm : minus ++ whole ++ places = c :: more)
    (h : next?.number c (more ++ behind) more.length = some (token, taken)) :
    more.length = taken ∧ token.Written (c :: more) behind := by
  rw [next?.number, List.take_left, Option.map_eq_some_iff] at h
  obtain ⟨amount, ha, he⟩ := h
  obtain ⟨rfl, rfl⟩ := Prod.mk.inj he
  rw [← hm] at ha ⊢
  exact ⟨rfl, .number hn ha⟩

theorem written_of_text (hq : isQuote c = true)
    (hl : (rest.takeWhile (· != c)).length < rest.length) :
    ∃ behind, rest = (rest.takeWhile (· != c) ++ [c]) ++ behind ∧
      (Token.literal (.text (String.ofList (rest.takeWhile (· != c))))).Written
        (c :: (rest.takeWhile (· != c) ++ [c])) behind := by
  have hbody : c ∉ rest.takeWhile (· != c) :=
    fun hm ↦ bne_iff_ne.1 (List.mem_takeWhile_imp (p := (· != c)) hm) rfl
  have happend := List.takeWhile_append_dropWhile (p := (· != c)) (l := rest)
  have hnot := any_head?_dropWhile (· != c) rest
  cases hd : rest.dropWhile (· != c) with
  | nil =>
    rw [hd, List.append_nil] at happend
    rw [happend] at hl
    exact absurd hl (Nat.lt_irrefl _)
  | cons d behind =>
    rw [hd] at hnot happend
    obtain rfl : d = c := by simpa using hnot
    refine ⟨behind, ?_, .text hq hbody⟩
    rw [List.append_assoc]
    exact happend.symm

/-- What the scanner takes for a token writes it. -/
theorem exists_of_next?_eq_some (h : next? c rest = some (token, taken)) :
    ∃ more behind, rest = more ++ behind ∧ more.length = taken ∧
      token.Written (c :: more) behind := by
  revert h
  fun_cases next? c rest with
  | case1 hq body hl => -- a text
    intro h
    obtain ⟨rfl, rfl⟩ := Prod.mk.inj (Option.some.inj h)
    obtain ⟨behind, happend, hw⟩ := written_of_text hq hl
    exact ⟨_, behind, happend, List.length_append, hw⟩
  | case4 hq hat hne => -- a path
    intro h
    obtain ⟨rfl, rfl⟩ := Prod.mk.inj (Option.some.inj h)
    obtain ⟨head, more, behind, rfl, hl, hi, he⟩ := exists_of_nameLength_ne_zero hne
    subst hat
    refine ⟨dotted head more, behind, rfl, hl, ?_⟩
    rw [← hl, List.take_left, segmentsOf_dotted hi]
    exact .path hi he
  | case5 hq hat hs more => -- a word
    intro h
    obtain ⟨word, hw, he⟩ := Option.map_eq_some_iff.1 h
    obtain ⟨rfl, rfl⟩ := Prod.mk.inj he
    obtain ⟨word, hm, hl⟩ := ofWord?_eq_some_iff.1 hw
    exact ⟨more, _, List.takeWhile_append_dropWhile.symm, rfl,
      .word hm hl (any_head?_dropWhile _ _)⟩
  | case6 hq hat hs hd => -- a number
    intro h
    obtain ⟨whole, places, behind, he, hl, hn⟩ :=
      exists_of_numberLength_ne_zero (numberLength_ne_zero hd rest)
    obtain ⟨first, digits, rfl⟩ := List.exists_cons_of_ne_nil hn.whole.1
    obtain ⟨rfl, rfl⟩ : c = first ∧ rest = digits ++ places ++ behind := List.cons.inj he
    rw [← hl] at h
    exact ⟨_, behind, rfl, written_of_number hn rfl h⟩
  | case8 hq hat hs hd hm hne => -- a number with a minus
    intro h
    obtain ⟨whole, places, behind, rfl, hl, hn⟩ := exists_of_numberLength_ne_zero hne
    rw [← hl] at h
    subst hm
    exact ⟨_, behind, rfl, written_of_number ⟨.inr rfl, hn.whole, hn.places⟩ rfl h⟩
  | case9 hq hat hs hd hm token' hp => -- a sign of two characters
    intro h
    obtain ⟨rfl, rfl⟩ := Prod.mk.inj (Option.some.inj h)
    obtain ⟨d, hh, hp⟩ := Option.bind_eq_some_iff.1 hp
    obtain ⟨behind, rfl⟩ := List.head?_eq_some_iff.1 hh
    have hm := ofPair?_eq_some_iff.1 hp
    refine ⟨[d], behind, rfl, rfl, .sign hm fun he ↦ ?_⟩
    rw [he, mem_strictSigns_not] at hm
    cases hm
  | case10 hq hat hs hd hm hp => -- a sign of one character
    intro h
    obtain ⟨sign, hsign, he⟩ := Option.map_eq_some_iff.1 h
    obtain ⟨rfl, rfl⟩ := Prod.mk.inj he
    have hm := ofSign?_eq_some_iff.1 hsign
    refine ⟨[], rest, rfl, rfl, .sign hm fun he hh ↦ ?_⟩
    rw [he, mem_strictSigns_not] at hm
    rw [List.singleton_inj.1 hm, hh] at hp
    cases hp
  | _ =>
    intro h
    cases h

end

end Token

theorem Row.of_gap {tokens : List Token} {gap cs : List Char} (hg : gap.all isGap = true)
    (h : Row tokens cs) : Row tokens (gap ++ cs) := by
  cases h with
  | nil hg' => exact .nil (by rw [List.all_append, hg, hg', Bool.and_self])
  | cons hg' hw h =>
    rw [← List.append_assoc, ← List.append_assoc]
    exact .cons (by rw [List.all_append, hg, hg', Bool.and_self]) hw h

/-- The tokens that the scanner finds are a row. -/
theorem row_of_scan? {tokens : List Token} {cs : List Char} (h : Token.scan? cs = some tokens) :
    Row tokens cs := by
  revert h
  fun_induction Token.scan? cs generalizing tokens with
  | case1 =>
    intro h
    cases h
    exact .nil rfl
  | case2 c rest hg ih =>
    intro h
    have hgap : [c].all isGap = true := by simpa using hg
    exact Row.of_gap hgap (ih h)
  | case3 c rest hg hn =>
    intro h
    cases h
  | case4 c rest hg token taken hn ih =>
    intro h
    obtain ⟨others, ho, rfl⟩ := Option.map_eq_some_iff.1 h
    obtain ⟨more, behind, rfl, rfl, hw⟩ := Token.exists_of_next?_eq_some hn
    rw [List.drop_left] at ih ho
    have hnil : [].all isGap = true := rfl
    exact Row.cons hnil hw (ih ho)

end LoanClosing.Condition
