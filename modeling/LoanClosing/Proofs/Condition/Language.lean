import LoanClosing.Proofs.Condition.Nesting
import LoanClosing.Proofs.Condition.Row

/-!
# The language of conditions

A text is read as a condition exactly when it is a row of tokens that write the condition. With the
tokens told by their characters and the grammar by its levels, this fixes what is read and what is
refused: what goes on behind a whole condition, what has been compared and is compared again, a word
that names something and is not marked, and parentheses that do not match.
-/

namespace LoanClosing.Condition

/-! ## Nothing is left to mark -/

section

variable {names : List String} {token : Token} {tokens : List Token} {w rest cs : List Char}

/-- Marking takes a token as it is. -/
theorem Token.Written.mark_eq (h : token.Written w rest)
    (hn : ∀ name ∈ names, ¬ IsReserved name) (before : Option Char) :
    ∃ after, mark names none before (w ++ rest) = w ++ mark names none after rest := by
  cases h with
  | sign h => exact ⟨_, mark_of_not_starts (not_start_of_mem_strictSigns h)⟩
  | word h hl hr => exact ⟨_, mark_reserved h hl hn hr⟩
  | number h ha =>
    exact ⟨_, mark_of_not_starts fun c hc ↦
      ⟨isQuote_of_isOrdinary (h.isOrdinary c hc), h.isIdentifierStart_eq_false c hc⟩⟩
  | @text quote body _ hq hb =>
    refine ⟨some quote, ?_⟩
    have hquoted : mark names none before (quote :: (body ++ quote :: rest)) =
        quote :: (body ++ quote :: mark names none (some quote) rest) := mark_quoted hq hb
    simpa using hquoted
  | @path head more _ h hr =>
    have hjoins : ∀ c ∈ dotted head more, joinsWord c = true := by
      intro c hc
      rcases mem_dotted h c hc with hp | rfl
      · exact joinsWord_of_isIdentifierPart hp
      · decide
    refine ⟨(dotted head more).getLast?.or (some '@'), ?_⟩
    rw [List.cons_append, mark_of_not_start (by decide) (.inl (by decide)),
      mark_of_joinsWord (by decide) hjoins]
    rfl

/-- In a row of tokens every word that could name something is marked. -/
theorem Row.mark_eq (h : Row tokens cs) (hn : ∀ name ∈ names, ¬ IsReserved name)
    (before : Option Char) : mark names none before cs = cs := by
  induction h generalizing before with
  | @nil gap hg =>
    have hgap : mark names none before (gap ++ []) = gap ++ [] := by rw [mark_gap hg, mark]
    rwa [List.append_nil] at hgap
  | @cons token tokens gap w rest hg hw h ih =>
    obtain ⟨after, hafter⟩ := hw.mark_eq hn (gap.getLast?.or before)
    rw [List.append_assoc, mark_gap hg, hafter, ih]

end

/-! ## Parentheses match -/

/-- The number of parentheses that are open behind a text, if none closes that has not opened and
every quote is closed. The quote that is open and the number of open parentheses in front are given;
what stands between quotes does not count. -/
def parenDepth? : Option Char → Nat → List Char → Option Nat
  | none, depth, [] => some depth
  | some _, _, [] => none
  | some quote, depth, c :: rest =>
    parenDepth? (if c = quote then none else some quote) depth rest
  | none, depth, c :: rest =>
    if isQuote c then parenDepth? (some c) depth rest
    else if c = '(' then parenDepth? none (depth + 1) rest
    else if c = ')' then if depth = 0 then none else parenDepth? none (depth - 1) rest
    else parenDepth? none depth rest

section

variable {token : Token} {tokens : List Token} {nesting nesting' : Nesting} {depth : Nat}
  {w rest cs : List Char}

theorem parenDepth?_of_plain (h : ∀ c ∈ w, isQuote c = false ∧ c ≠ '(' ∧ c ≠ ')') :
    parenDepth? none depth (w ++ rest) = parenDepth? none depth rest := by
  induction w with
  | nil => rfl
  | cons c w ih =>
    rw [List.forall_mem_cons] at h
    obtain ⟨⟨hq, ho, hc⟩, hw⟩ := h
    rw [List.cons_append, parenDepth?, if_neg (by rw [hq]; decide), if_neg ho, if_neg hc, ih hw]

theorem parenDepth?_of_isOrdinary (h : ∀ c ∈ w, isOrdinary c = true) :
    parenDepth? none depth (w ++ rest) = parenDepth? none depth rest := by
  apply parenDepth?_of_plain
  intro c hc
  refine ⟨isQuote_of_isOrdinary (h c hc), ?_, ?_⟩ <;>
    (rintro rfl; exact absurd (h _ hc) (by decide))

theorem parenDepth?_quoted {quote : Char} {body : List Char} (hq : isQuote quote = true)
    (h : quote ∉ body) :
    parenDepth? none depth (quote :: (body ++ quote :: rest)) = parenDepth? none depth rest := by
  have hin : parenDepth? (some quote) depth (body ++ quote :: rest) =
      parenDepth? none depth rest := by
    induction body with
    | nil => simp [parenDepth?]
    | cons c body ih =>
      rw [List.mem_cons, not_or] at h
      rw [List.cons_append, parenDepth?, if_neg (Ne.symm h.1), ih h.2]
  rw [parenDepth?, if_pos hq, hin]

theorem parenDepth?_cons {c : Char} (h : isQuote c = false) :
    parenDepth? none depth (c :: rest) =
      if c = '(' then parenDepth? none (depth + 1) rest
      else if c = ')' then if depth = 0 then none else parenDepth? none (depth - 1) rest
      else parenDepth? none depth rest := by
  rw [parenDepth?, if_neg (by rw [h]; decide)]

/-- Only parentheses go in and out. -/
theorem Nesting.outer_of_next? (h : nesting.next? token = some nesting')
    (ho : token ≠ .openParen) (hc : token ≠ .closeParen) : nesting.outer = nesting'.outer := by
  rw [next?.eq_def] at h
  split at h <;> cases h
  case h_1 => exact absurd rfl ho
  case h_2 => exact absurd rfl hc
  all_goals rfl

/-- The characters of a token open and close as many parentheses as the token. -/
theorem Token.Written.parenDepth?_eq (h : token.Written w rest)
    (hn : nesting.next? token = some nesting') :
    parenDepth? none nesting.outer.length (w ++ rest) =
      parenDepth? none nesting'.outer.length rest := by
  -- A token that is no parenthesis and holds none outside of quotes.
  have of_same : token ≠ .openParen → token ≠ .closeParen →
      parenDepth? none nesting.outer.length (w ++ rest) =
        parenDepth? none nesting.outer.length rest →
      parenDepth? none nesting.outer.length (w ++ rest) =
        parenDepth? none nesting'.outer.length rest :=
    fun ho hc he ↦ by rw [he, Nesting.outer_of_next? hn ho hc]
  cases h with
  | sign h =>
    have hall : ∀ p ∈ strictSigns, p.1 = ['('] ∧ p.2 = .openParen ∨
        p.1 = [')'] ∧ p.2 = .closeParen ∨
        p.2 ≠ .openParen ∧ p.2 ≠ .closeParen ∧
          p.1.all (fun c ↦ !isQuote c && c != '(' && c != ')') = true := by decide
    obtain ⟨rfl, rfl⟩ | ⟨rfl, rfl⟩ | ⟨ho, hc, hw⟩ := hall _ h
    · obtain ⟨compared, outer⟩ := nesting
      obtain rfl := Option.some.inj hn
      rw [List.singleton_append, parenDepth?_cons (by decide), if_pos rfl, List.length_cons]
    · obtain ⟨compared, outer⟩ := nesting
      cases outer with
      | nil => cases hn
      | cons compared' outer =>
        obtain rfl := Option.some.inj hn
        rw [List.singleton_append, parenDepth?_cons (by decide), if_neg (by decide), if_pos rfl,
          List.length_cons, if_neg (Nat.succ_ne_zero _), Nat.add_sub_cancel]
    · refine of_same ho hc (parenDepth?_of_plain fun c hc ↦ ?_)
      simpa [and_assoc] using List.all_eq_true.1 hw c hc
  | word h hl hr =>
    have hnot : ∀ p ∈ reservedWords, p.2 ≠ .openParen ∧ p.2 ≠ .closeParen := by decide
    exact of_same (hnot _ h).1 (hnot _ h).2
      (parenDepth?_of_isOrdinary (isOrdinary_of_mem_reserved h hl))
  | number h ha => exact of_same (by simp) (by simp) (parenDepth?_of_isOrdinary h.isOrdinary)
  | text hq hb => exact of_same (by simp) (by simp) (by simpa using parenDepth?_quoted hq hb)
  | path h hr =>
    refine of_same (by simp) (by simp) ?_
    rw [List.cons_append, parenDepth?_cons (by decide), if_neg (by decide), if_neg (by decide),
      parenDepth?_of_isOrdinary (isOrdinary_of_mem_dotted h)]

theorem Row.parenDepth?_eq (h : Row tokens cs) (hr : nesting.run? tokens = some nesting') :
    parenDepth? none nesting.outer.length cs = some nesting'.outer.length := by
  induction h generalizing nesting with
  | @nil gap hg =>
    obtain rfl := Option.some.inj hr
    rw [← List.append_nil gap, parenDepth?_of_isOrdinary (isOrdinary_of_mem_gap hg), parenDepth?]
  | @cons token tokens gap w rest hg hw h ih =>
    rw [Nesting.run?_cons, Option.bind_eq_some_iff] at hr
    obtain ⟨between, hn, hr⟩ := hr
    rw [List.append_assoc, parenDepth?_of_isOrdinary (isOrdinary_of_mem_gap hg),
      hw.parenDepth?_eq hn, ih hr]

end

/-! ## The language -/

/-- A row in which operands and signs take turns is the one that the scanner finds. -/
theorem Row.scan?_eq {tokens : List Token} {cs : List Char} {awaited : Bool} (h : Row tokens cs)
    (ht : TakesTurns awaited tokens) : Token.scan? cs = some tokens := by
  have happend := h.scan?_append ht [] rfl
  rwa [List.append_nil, Token.scan?, Option.map_some, List.append_nil] at happend

section

variable {e : Expr} {cs : List Char}

/-- What is read as a condition is a row of tokens that write it. -/
theorem exists_of_parse?_eq_some (h : parse? cs = some e) :
    ∃ tokens, Row tokens cs ∧ Token.scan? cs = some tokens ∧ Writes .disjunction e tokens := by
  obtain ⟨tokens, hs, hw⟩ := parse?_eq_some_iff.1 h
  exact ⟨tokens, row_of_scan? hs, hs, hw⟩

/-- What has been compared is not compared again. -/
theorem parse?_chained {front mids rest : List Token} {first second : Comparison} {operand : Expr}
    (h : Row (front ++ .compare first :: mids ++ .compare second :: rest) cs)
    (ht : TakesTurns true (front ++ .compare first :: mids ++ .compare second :: rest))
    (ho : Writes .operand operand mids) : parse? cs = none := by
  by_contra hne
  obtain ⟨e, he⟩ := Option.ne_none_iff_exists'.1 hne
  obtain ⟨tokens, -, hs, hw⟩ := exists_of_parse?_eq_some he
  obtain rfl := Option.some.inj (hs.symm.trans (h.scan?_eq ht))
  exact ho.not_chained hw

/-- Behind a whole condition only a sign between operands goes on. -/
theorem parse?_extra {gap : Char} {extra : List Char} (h : parse? cs = some e)
    (hg : isGap gap = true)
    (hx : ∀ tokens, Token.scan? extra = some tokens →
      ∃ token ∈ tokens.head?, token.opens = true ∨ token.closes = true) :
    parse? (cs ++ gap :: extra) = none := by
  by_contra hne
  obtain ⟨whole, he⟩ := Option.ne_none_iff_exists'.1 hne
  obtain ⟨front, hrow, -, hfront⟩ := exists_of_parse?_eq_some h
  obtain ⟨tokens, -, hs, hw⟩ := exists_of_parse?_eq_some he
  rw [hrow.scan?_append hfront.takesTurns_self (gap :: extra) hg, Token.scan?, if_pos hg,
    Option.map_eq_some_iff] at hs
  obtain ⟨others, hothers, rfl⟩ := hs
  obtain ⟨token, hhead, ht⟩ := hx others hothers
  obtain ⟨rest, rfl⟩ := List.head?_eq_some_iff.1 hhead
  exact hfront.not_extra ht hw

end

/-- The texts that are read as a condition are the rows of tokens that write it, so that these are
refused: a comparison of what has been compared, anything but a sign between operands behind a whole
condition, a word that names something in scope and has no mark, and parentheses or quotes that do
not match. -/
theorem parse?_exactly_grammar (cs : List Char) :
    (∀ e, parse? cs = some e ↔ ∃ tokens, Row tokens cs ∧ Writes .disjunction e tokens) ∧
    (∀ front mids rest first second operand,
      Row (front ++ .compare first :: mids ++ .compare second :: rest) cs →
      TakesTurns true (front ++ .compare first :: mids ++ .compare second :: rest) →
      Writes .operand operand mids → parse? cs = none) ∧
    (∀ front gap extra e, cs = front ++ gap :: extra → parse? front = some e →
      isGap gap = true →
      (∀ tokens, Token.scan? extra = some tokens →
        ∃ token ∈ tokens.head?, token.opens = true ∨ token.closes = true) →
      parse? cs = none) ∧
    (∀ names, (∀ name ∈ names, ¬ IsReserved name) → qualify names cs ≠ cs → parse? cs = none) ∧
    (parenDepth? none 0 cs ≠ some 0 → parse? cs = none) := by
  have accepted : parse? cs ≠ none → ∃ e tokens, Row tokens cs ∧ Writes .disjunction e tokens := by
    intro hne
    obtain ⟨e, he⟩ := Option.ne_none_iff_exists'.1 hne
    obtain ⟨tokens, hrow, -, hw⟩ := exists_of_parse?_eq_some he
    exact ⟨e, tokens, hrow, hw⟩
  refine ⟨fun e ↦ ⟨fun h ↦ ?_, ?_⟩, ?_, ?_, ?_, ?_⟩
  · obtain ⟨tokens, hrow, -, hw⟩ := exists_of_parse?_eq_some h
    exact ⟨tokens, hrow, hw⟩
  · rintro ⟨tokens, hrow, hw⟩
    exact parse?_eq_some_iff.2 ⟨tokens, hrow.scan?_eq hw.takesTurns_self, hw⟩
  · exact fun front mids rest first second operand h ht ho ↦ parse?_chained h ht ho
  · rintro front gap extra e rfl h hg hx
    exact parse?_extra h hg hx
  · intro names hn hq
    by_contra hne
    obtain ⟨e, tokens, hrow, -⟩ := accepted hne
    exact hq (hrow.mark_eq hn none)
  · intro hd
    by_contra hne
    obtain ⟨e, tokens, hrow, hw⟩ := accepted hne
    obtain ⟨compared, hrun⟩ := hw.settles []
    exact hd (hrow.parenDepth?_eq hrun)

/-- A chain of three operands, a second path, a word without its mark, and a parenthesis that stays
open are refused; signs of different precedence are not. -/
theorem parse?_exactly_grammar_samples :
    parse? "@a or 'x' <= (@b) < 'y'".toList = none ∧
    parse? "@a @b".toList = none ∧
    parse? "Loan.Amount > 1".toList = none ∧
    parse? "('(' == @a".toList = none ∧
    parse? "@a || @b && not @c".toList =
      some (.or (.path ["a"]) (.and (.path ["b"]) (.not (.path ["c"])))) := by
  refine ⟨?_, ?_, ?_, ?_, ?_⟩
  · have hs : Token.scan? "@a or 'x' <= (@b) < 'y'".toList =
        some ([Token.path ["a"], Token.or, Token.literal (.text "x")] ++ Token.compare .atMost ::
          [Token.openParen, Token.path ["b"], Token.closeParen] ++ Token.compare .less ::
          [Token.literal (.text "y")]) := by decide +kernel
    have ho : Writes .operand (.path ["b"]) [.openParen, .path ["b"], .closeParen] :=
      .parens (.lift (.path ["b"]) .disjunction)
    obtain ⟨-, hchained, -⟩ := parse?_exactly_grammar "@a or 'x' <= (@b) < 'y'".toList
    apply hchained _ _ _ _ _ _ (row_of_scan? hs) _ ho
    simp [TakesTurns, Token.opens, Token.closes]
  · obtain ⟨-, -, hextra, -⟩ := parse?_exactly_grammar "@a @b".toList
    have hf : Token.scan? "@a".toList = some [.path ["a"]] := by decide +kernel
    have hfront := parse?_eq_some_iff.2 ⟨_, hf, .lift (.path ["a"]) .disjunction⟩
    have hs : Token.scan? "@b".toList = some [.path ["b"]] := by decide +kernel
    have happend : "@a @b".toList = "@a".toList ++ ' ' :: "@b".toList := by simp
    refine hextra _ _ _ _ happend hfront rfl fun tokens h ↦ ?_
    obtain rfl := Option.some.inj (hs.symm.trans h)
    exact ⟨_, rfl, .inl rfl⟩
  · obtain ⟨-, -, -, hmark, -⟩ := parse?_exactly_grammar "Loan.Amount > 1".toList
    have hq : qualify ["Loan"] "Loan.Amount > 1".toList = "@Loan.Amount > 1".toList := rfl
    refine hmark ["Loan"] ?_ (by rw [hq]; simp)
    unfold IsReserved
    decide
  · obtain ⟨-, -, -, -, hparens⟩ := parse?_exactly_grammar "('(' == @a".toList
    have hd : parenDepth? none 0 "('(' == @a".toList = some 1 := rfl
    exact hparens (by rw [hd]; decide)
  · have hs : Token.scan? "@a || @b && not @c".toList =
        some [.path ["a"], .or, .path ["b"], .and, .not, .path ["c"]] := by decide +kernel
    obtain ⟨hiff, -⟩ := parse?_exactly_grammar "@a || @b && not @c".toList
    have hright := (Writes.lift (.path ["b"]) .conjunction).and
      (.not (.lift (.path ["c"]) .negation))
    exact (hiff _).mpr ⟨_, row_of_scan? hs, (Writes.lift (.path ["a"]) .disjunction).or hright⟩

end LoanClosing.Condition
