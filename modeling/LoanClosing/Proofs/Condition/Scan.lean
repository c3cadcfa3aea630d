import LoanClosing.Proofs.Condition.Parser
import LoanClosing.Proofs.Condition.Strict

/-!
# Conditions mean what they say

In the strict style the scanner takes each lexeme whole and no more than it, so that it finds the
tokens that are spelled. With the two rewritings in front of it and the parser behind, whatever an
author may write for a condition is read as that condition.
-/

namespace LoanClosing.Condition

namespace Token

/-! ## Paths -/

section

variable {head : String} {more : List String} {rest : List Char}

/-- A name at the end of a path. -/
theorem nameLength_of_end (h : Text.isIdentifier head.toList = true)
    (hr : rest.head?.any Text.isIdentifierPart = false) (hd : rest.head? ≠ some '.') :
    nameLength (head.toList ++ rest) = head.toList.length := by
  obtain ⟨c, part, hc, hs, hp⟩ := exists_of_isIdentifier h
  rw [hc, List.forall_mem_cons] at hp
  have htake := takeWhile_append_of_head? hp.2 hr
  have hdrop := dropWhile_append_of_head? hp.2 hr
  rw [hc, List.cons_append, nameLength, if_pos hs]
  simp only [htake]
  split
  · next hm =>
    rw [hdrop] at hm
    exact absurd (by rw [hm]; rfl) hd
  · simp [Nat.add_comm]

/-- A name in front of the point of a path. -/
theorem nameLength_of_point (h : Text.isIdentifier head.toList = true)
    (hr : nameLength rest ≠ 0) :
    nameLength (head.toList ++ '.' :: rest) = head.toList.length + 1 + nameLength rest := by
  obtain ⟨c, part, hc, hs, hp⟩ := exists_of_isIdentifier h
  rw [hc, List.forall_mem_cons] at hp
  have hhead : ('.' :: rest).head?.any Text.isIdentifierPart = false := rfl
  have htake := takeWhile_append_of_head? hp.2 hhead
  have hdrop := dropWhile_append_of_head? hp.2 hhead
  rw [hc, List.cons_append, nameLength, if_pos hs]
  simp only [htake]
  split
  · next hm =>
    rw [hdrop] at hm
    obtain rfl := (List.cons.inj hm).2
    split
    · next hz => exact absurd hz hr
    · next n hn =>
      rw [hn, List.length_cons]
      omega
  · next hm => exact absurd hdrop (hm _)

/-- A path is taken whole. -/
theorem nameLength_dotted
    (h : ∀ segment ∈ head :: more, Text.isIdentifier segment.toList = true)
    (hr : rest.head?.any Text.isIdentifierPart = false) (hd : rest.head? ≠ some '.') :
    nameLength (dotted head more ++ rest) = (dotted head more).length := by
  induction more generalizing head with
  | nil => exact nameLength_of_end (h head List.mem_cons_self) hr hd
  | cons next more ih =>
    have hnext := fun segment hm ↦ h segment (List.mem_cons_of_mem _ hm)
    obtain ⟨c, tail, hc, -⟩ : ∃ c tail, dotted next more = c :: tail ∧ _ :=
      exists_dotted_eq (hnext next List.mem_cons_self)
    have hne : nameLength (dotted next more ++ rest) ≠ 0 := by
      rw [ih hnext, hc]
      exact Nat.succ_ne_zero _
    rw [dotted, List.append_assoc, List.cons_append,
      nameLength_of_point (h head List.mem_cons_self) hne, ih hnext]
    simp only [List.length_append, List.length_cons]
    omega

/-- The segments of a path are those that it is written with. -/
theorem segmentsOf_dotted
    (h : ∀ segment ∈ head :: more, Text.isIdentifier segment.toList = true) :
    segmentsOf (dotted head more) = head :: more := by
  have hdot : ∀ segment ∈ head :: more, '.' ∉ segment.toList := by
    intro segment hm hd
    obtain ⟨-, -, -, -, hp⟩ := exists_of_isIdentifier (h segment hm)
    exact absurd (hp '.' hd) (by decide)
  clear h
  induction more generalizing head with
  | nil =>
    rw [segmentsOf, dotted, Text.splitAt_of_notMem (hdot head List.mem_cons_self)]
    simp
  | cons next more ih =>
    have htail := ih fun segment hm ↦ hdot segment (List.mem_cons_of_mem _ hm)
    rw [segmentsOf] at htail ⊢
    rw [dotted, Text.splitAt_append_cons, Text.splitAt_of_notMem (hdot head List.mem_cons_self),
      List.singleton_append, List.map_cons, htail, String.ofList_toList]

theorem next?_path (h : ∀ segment ∈ head :: more, Text.isIdentifier segment.toList = true)
    (hr : rest.head?.any Text.isIdentifierPart = false) (hd : rest.head? ≠ some '.') :
    next? '@' (dotted head more ++ rest) =
      some (.path (head :: more), (dotted head more).length) := by
  obtain ⟨c, tail, hc, -⟩ : ∃ c tail, dotted head more = c :: tail ∧ _ :=
    exists_dotted_eq (h head List.mem_cons_self)
  rw [next?, if_neg (by decide), if_pos rfl, nameLength_dotted h hr hd]
  split
  · next hz =>
    rw [hc] at hz
    exact absurd hz (Nat.succ_ne_zero _)
  · rw [List.take_left, segmentsOf_dotted h]

end

/-! ## Numbers -/

/-- An unsigned number is taken whole. -/
theorem numberLength_eq {minus whole places rest : List Char} (h : IsNumeral minus whole places)
    (hr : Begins false rest) :
    numberLength (whole ++ places ++ rest) = (whole ++ places).length := by
  obtain ⟨-, ⟨hne, hw⟩, hp⟩ := h
  have hdigit : rest.head?.any Char.isDigit = false := by
    cases hh : rest.head? with
    | none => rfl
    | some c => exact (hr c hh).1
  obtain ⟨c, tail, rfl⟩ := List.exists_cons_of_ne_nil hne
  rcases hp with rfl | ⟨digits, rfl, hne', hd⟩
  · have htake := takeWhile_append_of_head? hw hdigit
    have hdrop := dropWhile_append_of_head? hw hdigit
    rw [List.append_nil, numberLength, htake, hdrop]
    split
    · next hz => exact absurd hz (by simp)
    · next more _ => exact absurd rfl (hr '.' rfl).2
    · rfl
  · have hpoint : ('.' :: (digits ++ rest)).head?.any Char.isDigit = false := rfl
    have htake := takeWhile_append_of_head? hw hpoint
    have hdrop := dropWhile_append_of_head? hw hpoint
    obtain ⟨d, tail', rfl⟩ := List.exists_cons_of_ne_nil hne'
    have hplaces := takeWhile_append_of_head? hd hdigit
    rw [List.append_assoc, List.cons_append (a := '.'), numberLength, htake, hdrop]
    simp only [hplaces]
    simp
    omega

theorem next?_digit {c : Char} {more rest : List Char} {amount : Decimal} (hc : c.isDigit = true)
    (hl : numberLength (c :: (more ++ rest)) = (c :: more).length)
    (ha : Decimal.ofChars? (c :: more) = some amount) :
    next? c (more ++ rest) = some (.literal (.number amount), more.length) := by
  have hq := isQuote_of_isOrdinary (isOrdinary_of_isIdentifierPart (isIdentifierPart_of_isDigit hc))
  have hat : c ≠ '@' := by
    rintro rfl
    exact absurd hc (by decide)
  rw [next?, if_neg (by rw [hq]; decide), if_neg hat,
    if_neg (by rw [isIdentifierStart_of_isDigit hc]; decide), if_pos hc, hl, List.length_cons,
    Nat.add_sub_cancel, next?.number, List.take_left, ha]
  rfl

theorem next?_minus {more rest : List Char} {amount : Decimal} (hne : more ≠ [])
    (hl : numberLength (more ++ rest) = more.length)
    (ha : Decimal.ofChars? ('-' :: more) = some amount) :
    next? '-' (more ++ rest) = some (.literal (.number amount), more.length) := by
  rw [next?, if_neg (by decide), if_neg (by decide), if_neg (by decide), if_neg (by decide),
    if_pos rfl, hl]
  split
  · next hz => exact absurd (List.length_eq_zero_iff.1 hz) hne
  · rw [next?.number, List.take_left, ha]
    rfl

/-! ## Words, texts and signs -/

theorem next?_word {c : Char} {more rest : List Char} {word : String} {token : Token}
    (h : (word, token) ∈ reservedWords) (hl : (c :: more).map Char.toLower = word.toList)
    (hr : rest.head?.any Text.isIdentifierPart = false) :
    next? c (more ++ rest) = some (token, more.length) := by
  obtain ⟨-, ha⟩ := isAlpha_of_reserved h hl
  rw [List.forall_mem_cons] at ha
  have hc := isIdentifierPart_of_isAlpha ha.1
  have hat : c ≠ '@' := by
    rintro rfl
    exact absurd hc (by decide)
  have hmore : ∀ d ∈ more, Text.isIdentifierPart d = true :=
    fun d hd ↦ isIdentifierPart_of_isAlpha (ha.2 d hd)
  rw [next?, if_neg (by rw [isQuote_of_isOrdinary (isOrdinary_of_isIdentifierPart hc)]; decide),
    if_neg hat, if_pos (isIdentifierStart_of_isAlpha ha.1), takeWhile_append_of_head? hmore hr]
  show (ofWord? (c :: more)).map (·, more.length) = some (token, more.length)
  rw [ofWord?_eq_some_iff.2 ⟨_, h, hl⟩]
  rfl

theorem next?_text {quote : Char} {body rest : List Char} (hq : isQuote quote = true)
    (h : quote ∉ body) :
    next? quote (body ++ quote :: rest) =
      some (.literal (.text (String.ofList body)), body.length + 1) := by
  have hbody : (body ++ quote :: rest).takeWhile (· != quote) = body := by
    apply takeWhile_append_of_head?
    · intro c hc
      exact bne_iff_ne.2 (ne_of_mem_of_not_mem hc h)
    · simp
  rw [next?, if_pos hq, hbody, if_pos (by simp)]

/-- Only a second character that makes a pair with the first is taken with it. -/
theorem ofPair?_eq_none {c d : Char} (hc : c ≠ '&' ∧ c ≠ '|' ∧ c ≠ '=')
    (hd : c = ')' ∨ d ≠ '=') : ofPair? c d = none := by
  unfold ofPair?
  split
  · exact absurd rfl hc.1
  · exact absurd rfl hc.2.1
  · exact absurd rfl hc.2.2
  · simp at hd
  · simp at hd
  · simp at hd
  · rfl

theorem next?_sign {c : Char} {more rest : List Char} {token : Token}
    (h : (c :: more, token) ∈ strictSigns) (hr : token.closes = false → rest.head? ≠ some '=') :
    next? c (more ++ rest) = some (token, more.length) := by
  have hall : ∀ p ∈ strictSigns, p.1.head?.all (fun c ↦ !isQuote c && decide (c ≠ '@') &&
      !Text.isIdentifierStart c && !c.isDigit && decide (c ≠ '-')) = true := by decide
  have hc := hall _ h
  rw [List.head?_cons, Option.all_some] at hc
  simp only [Bool.and_eq_true, Bool.not_eq_true', decide_eq_true_eq] at hc
  obtain ⟨⟨⟨⟨hq, hat⟩, hs⟩, hd⟩, hm⟩ := hc
  rw [next?, if_neg (by rw [hq]; decide), if_neg hat, if_neg (by rw [hs]; decide),
    if_neg (by rw [hd]; decide), if_neg hm]
  have hpair : ∀ d, rest.head? = some d → c = ')' ∨ d ≠ '=' := by
    intro d hd
    have hclose : ∀ p ∈ strictSigns, p.2.closes = true → p.1.head? = some ')' := by decide
    cases hc : token.closes with
    | true => exact .inl (Option.some.inj (hclose _ h hc))
    | false =>
      right
      rintro rfl
      exact hr hc hd
  simp only [strictSigns, List.mem_cons, List.cons.injEq, Prod.mk.injEq, List.not_mem_nil,
    or_false] at h
  rcases h with ⟨⟨rfl, rfl⟩, rfl⟩ | ⟨⟨rfl, rfl⟩, rfl⟩ | ⟨⟨rfl, rfl⟩, rfl⟩ | ⟨⟨rfl, rfl⟩, rfl⟩ |
    ⟨⟨rfl, rfl⟩, rfl⟩ | ⟨⟨rfl, rfl⟩, rfl⟩ | ⟨⟨rfl, rfl⟩, rfl⟩ | ⟨⟨rfl, rfl⟩, rfl⟩ |
    ⟨⟨rfl, rfl⟩, rfl⟩ | ⟨⟨rfl, rfl⟩, rfl⟩ | ⟨⟨rfl, rfl⟩, rfl⟩
  -- A sign of two characters is a pair; a shorter one makes no pair with what stands behind it.
  all_goals first
    | rfl
    | rw [List.nil_append, Option.bind_eq_none_iff.2 fun d hd ↦
        ofPair?_eq_none (by decide) (hpair d hd)]; rfl

end Token

/-! ## The tokens of a spelling -/

section

variable {names : List String} {token : Token} {w rest : List Char}

open Token in
/-- The scanner takes a lexeme whole and no more than it. -/
theorem Lexeme.next?_eq (h : Lexeme .marked names token w) (ha : Apart token w rest)
    (hr : Begins (!token.closes) rest) :
    ∃ c more, w = c :: more ∧ next? c (more ++ rest) = some (token, more.length) := by
  cases h with
  | sign h =>
    have hall : ∀ p ∈ strictSigns, p.1 ≠ [] := by decide
    obtain ⟨c, more, rfl⟩ := List.exists_cons_of_ne_nil (hall _ h)
    refine ⟨c, more, rfl, next?_sign h ?_⟩
    intro hcloses he
    rw [hcloses] at hr
    exact (hr _ he).1 rfl
  | word h hl =>
    obtain ⟨c, more, rfl⟩ := List.exists_cons_of_ne_nil (isAlpha_of_reserved h hl).1
    exact ⟨c, more, rfl, next?_word h hl (ha.behind_reserved h hl)⟩
  | @number amount minus whole places h hd =>
    have hl := numberLength_eq h hr
    obtain ⟨rfl | rfl, ⟨hne, hw⟩, -⟩ := h
    · obtain ⟨c, tail, rfl⟩ := List.exists_cons_of_ne_nil hne
      exact ⟨c, tail ++ places, rfl, next?_digit (hw c List.mem_cons_self) hl hd⟩
    · exact ⟨'-', whole ++ places, rfl, next?_minus (by simp [hne]) hl hd⟩
  | @text quote opening closing body ho hc hq ht =>
    obtain ⟨rfl, hquote⟩ := eq_of_mem_plainQuotes ho
    obtain ⟨rfl, -⟩ := eq_of_mem_plainQuotes hc
    refine ⟨closing, body ++ [closing], rfl, ?_⟩
    rw [List.append_assoc, List.length_append]
    exact next?_text hquote hq
  | @path head more hm h =>
    refine ⟨'@', dotted head more, rfl, next?_path h (ha.behind_path h) ?_⟩
    exact fun he ↦ (hr _ he).2 rfl

/-- The tokens that are spelled in the strict style are those that the scanner finds. -/
theorem Spells.scan?_eq {tokens : List Token} {cs : List Char} {awaited : Bool}
    (h : Spells .marked names tokens cs) (ht : TakesTurns awaited tokens) :
    Token.scan? cs = some tokens := by
  induction h generalizing awaited with
  | nil gap hg =>
    have hgap : Token.scan? (gap ++ []) = some [] := by rw [scan?_gap hg, Token.scan?]
    rwa [List.append_nil] at hgap
  | @cons token tokens gap w rest hg hw ha h ih =>
    obtain ⟨-, ht⟩ := ht
    obtain ⟨c, more, rfl, hnext⟩ := hw.next?_eq ha (h.begins ht)
    have hc : isGap c = false := by
      obtain ⟨d, _, he, hd, -⟩ := hw.exists_cons
      obtain ⟨rfl, -⟩ := List.cons.inj he
      exact hd
    rw [List.append_assoc, scan?_gap hg, List.cons_append, Token.scan?, if_neg (by rw [hc]; decide),
      hnext]
    simp only
    rw [List.drop_left, ih ht, Option.map_some]

end

/-- Whatever authors may write for a condition is read as that condition, in a scope where no name
is a reserved word. -/
theorem Spelling.parse?_qualify_normalize {names : List String} {e : Expr} {cs : List Char}
    (h : Spelling names e cs) (hn : ∀ name ∈ names, ¬ IsReserved name) :
    parse? (qualify names (normalize cs)) = some e := by
  obtain ⟨tokens, hw, hs⟩ := h
  have ht : TakesTurns true (tokens ++ []) := hw.takesTurns rfl
  rw [List.append_nil] at ht
  exact parse?_eq_some_iff.2 ⟨tokens, (hs.qualify_normalize hn ht).scan?_eq ht, hw⟩

/-- A condition with a parenthesized disjunction, a negation, a text between typographic quotes and
a negative number. -/
def looseCondition : List Char :=
  "(Loan.State=‘CA’ OR NOT Loan.Paid) AndAlso Loan.Amount<>-12.50".toList

/-- What the loose condition says. -/
def looseExpr : Expr :=
  .and (.or (.compare (.path ["Loan", "State"]) .equal (.literal (.text "CA")))
      (.not (.path ["Loan", "Paid"])))
    (.compare (.path ["Loan", "Amount"]) .unequal
      (.literal (.number ⟨-1250, 2, by decide, by decide⟩)))

theorem spelling_looseCondition : Spelling ["Loan", "party"] looseExpr looseCondition := by
  have hw := Writes.and
    (.negation (.comparison (.operand (.parens (.or
      (.conjunction (.negation (.comparison
        (.compare .equal (.path ["Loan", "State"]) (.literal (.text "CA"))))))
      (.negation (.not (.comparison (.operand (.path ["Loan", "Paid"]))))))))))
    (.comparison (.compare .unequal (.path ["Loan", "Amount"])
      (.literal (.number ⟨-1250, 2, by decide, by decide⟩))))
  refine ⟨_, hw.conjunction, ?_⟩
  have hcs : looseCondition = [] ++ ['('] ++ ([] ++ dotted "Loan" ["State"] ++ ([] ++ ['='] ++
      ([] ++ ('‘' :: ['C', 'A'] ++ ['’']) ++ ([' '] ++ ['O', 'R'] ++ ([' '] ++ ['N', 'O', 'T'] ++
      ([' '] ++ dotted "Loan" ["Paid"] ++ ([] ++ [')'] ++ ([' '] ++ "AndAlso".toList ++
      ([' '] ++ dotted "Loan" ["Amount"] ++ ([] ++ ['<', '>'] ++
      ([] ++ (['-'] ++ ['1', '2'] ++ ['.', '5', '0']) ++ []))))))))))) := by
    decide
  have hpath : ∀ {segment : String}, Text.isIdentifier segment.toList = true →
      ∀ part ∈ ["Loan", segment], Text.isIdentifier part.toList = true := by
    intro segment h
    simpa using ⟨by decide, h⟩
  have hquote : ('\x27', '‘') ∈ Style.authored.quotes ∧ ('\x27', '’') ∈ Style.authored.quotes := by
    decide
  have hor : ("or", Token.or) ∈ reservedWords := by decide
  have hnot : ("not", Token.not) ∈ reservedWords := by decide
  have hand : ("andalso", Token.and) ∈ reservedWords := by decide
  have hnumeral : IsNumeral ['-'] ['1', '2'] ['.', '5', '0'] :=
    ⟨.inr rfl, ⟨by decide, List.all_eq_true.1 (by decide)⟩,
      .inr ⟨_, rfl, by decide, List.all_eq_true.1 (by decide)⟩⟩
  rw [hcs]
  refine .cons _ _ _ rfl (.sign (by decide)) (.of_getLast? rfl) ?_
  refine .cons _ _ _ rfl (.path (by decide) (hpath (by decide))) (.of_head? rfl) ?_
  refine .cons _ _ _ rfl (.sign (by decide)) (.of_getLast? rfl) ?_
  refine .cons _ _ _ rfl (.text hquote.1 hquote.2 (by decide) (by decide)) (.of_getLast? rfl) ?_
  refine .cons _ _ _ rfl (.word hor (by decide)) (.of_head? rfl) ?_
  refine .cons _ _ _ rfl (.word hnot (by decide)) (.of_head? rfl) ?_
  refine .cons _ _ _ rfl (.path (by decide) (hpath (by decide))) (.of_head? rfl) ?_
  refine .cons _ _ _ rfl (.sign (by decide)) (.of_getLast? rfl) ?_
  refine .cons _ _ _ rfl (.word hand (by decide)) (.of_head? rfl) ?_
  refine .cons _ _ _ rfl (.path (by decide) (hpath (by decide))) (.of_head? rfl) ?_
  refine .cons _ _ _ rfl (.sign (by decide)) (.of_getLast? rfl) ?_
  exact .cons _ _ _ rfl (.number hnumeral (by decide)) (.of_head? rfl) (.nil [] rfl)

theorem Spelling.parse?_looseCondition :
    Spelling ["Loan", "party"] looseExpr looseCondition ∧
      (∀ name ∈ ["Loan", "party"], ¬ IsReserved name) ∧
      parse? (qualify ["Loan", "party"] (normalize looseCondition)) = some looseExpr := by
  have hn : ∀ name ∈ ["Loan", "party"], ¬ IsReserved name := by
    unfold IsReserved
    decide
  exact ⟨spelling_looseCondition, hn, spelling_looseCondition.parse?_qualify_normalize hn⟩

end LoanClosing.Condition
