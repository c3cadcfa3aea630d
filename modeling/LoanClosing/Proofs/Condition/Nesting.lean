import LoanClosing.Proofs.Condition.Grammar

/-!
# What no condition has

A row of tokens that writes a condition closes every parenthesis that it opens, and no other.
Between two signs that join or negate conditions it compares at most once. So no operand stands
between two comparison signs, and no operand and no parenthesis follows a whole condition.
-/

namespace LoanClosing.Condition

/-- Whether a comparison has been written since the last sign that joins or negates conditions,
where the next token stands and around each parenthesis that is open there, innermost first. -/
structure Nesting where
  compared : Bool
  outer : List Bool

namespace Nesting

/-- Goes on by a token. No parenthesis closes that has not opened, and no comparison is compared. -/
def next? : Nesting → Token → Option Nesting
  | ⟨compared, outer⟩, .openParen => some ⟨false, compared :: outer⟩
  | ⟨_, compared :: outer⟩, .closeParen => some ⟨compared, outer⟩
  | ⟨_, []⟩, .closeParen => none
  | ⟨false, outer⟩, .compare _ => some ⟨true, outer⟩
  | ⟨true, _⟩, .compare _ => none
  | ⟨_, outer⟩, .not | ⟨_, outer⟩, .and | ⟨_, outer⟩, .or => some ⟨false, outer⟩
  | nesting, .literal _ | nesting, .path _ => some nesting

/-- Goes on by a row of tokens. -/
def run? (nesting : Nesting) (tokens : List Token) : Option Nesting := tokens.foldlM next? nesting

section

variable {nesting nesting' : Nesting} {token : Token} {tokens : List Token}

theorem run?_cons :
    nesting.run? (token :: tokens) = (nesting.next? token).bind (run? · tokens) :=
  List.foldlM_cons

theorem run?_append (front : List Token) :
    nesting.run? (front ++ tokens) = (nesting.run? front).bind (run? · tokens) :=
  List.foldlM_append

end

end Nesting

/-- An operand leaves the nesting as it was. What is looser begins where nothing has been compared
and ends as deep. -/
def Level.Settles (level : Level) (tokens : List Token) : Prop :=
  match level with
  | .operand => ∀ nesting : Nesting, nesting.run? tokens = some nesting
  | _ => ∀ outer, ∃ compared, Nesting.run? ⟨false, outer⟩ tokens = some ⟨compared, outer⟩

theorem Writes.settles {level : Level} {e : Expr} {tokens : List Token}
    (h : Writes level e tokens) : level.Settles tokens := by
  induction h with
  | literal | path => exact fun nesting ↦ rfl
  | parens _ ih =>
    rintro ⟨compared, outer⟩
    obtain ⟨inner, hi⟩ := ih (compared :: outer)
    rw [List.cons_append, Nesting.run?_cons, Nesting.next?, Option.bind_some, Nesting.run?_append,
      hi]
    rfl
  | operand _ ih => exact fun outer ↦ ⟨false, ih _⟩
  | comparison _ ih | negation _ ih | conjunction _ ih => exact ih
  | compare _ _ _ ihl ihr =>
    intro outer
    refine ⟨true, ?_⟩
    rw [Nesting.run?_append, ihl, Option.bind_some, Nesting.run?_cons, Nesting.next?,
      Option.bind_some, ihr]
  | not _ ih =>
    intro outer
    rw [Nesting.run?_cons, Nesting.next?, Option.bind_some]
    exact ih outer
  | and _ _ ihl ihr | or _ _ ihl ihr =>
    intro outer
    obtain ⟨compared, hl⟩ := ihl outer
    rw [Nesting.run?_append, hl, Option.bind_some, Nesting.run?_cons, Nesting.next?,
      Option.bind_some]
    exact ihr outer

/-- Turns go on behind tokens that end with an operand. -/
theorem TakesTurns.of_append {awaited : Bool} {front rest : List Token}
    (h : TakesTurns awaited front) (hr : TakesTurns awaited (front ++ rest)) :
    TakesTurns false rest := by
  induction front generalizing awaited with
  | nil =>
    obtain rfl : awaited = false := h
    exact hr
  | cons token front ih => exact ih h.2 hr.2

namespace Writes

variable {e operand : Expr} {tokens front mids rest : List Token}

/-- No operand of a condition stands between two comparison signs. -/
theorem not_chained {first second : Comparison} (ho : Writes .operand operand mids) :
    ¬ Writes .disjunction e (front ++ .compare first :: mids ++ .compare second :: rest) := by
  intro h
  obtain ⟨compared, hrun⟩ := h.settles []
  rw [List.append_assoc, Nesting.run?_append, Option.bind_eq_some_iff] at hrun
  obtain ⟨⟨flag, outer⟩, -, hrun⟩ := hrun
  -- Behind the first sign something has been compared, and the operand does not change that.
  cases flag with
  | true => cases hrun
  | false =>
    rw [List.cons_append, Nesting.run?_cons, Nesting.next?, Option.bind_some, Nesting.run?_append,
      ho.settles, Option.bind_some] at hrun
    cases hrun

/-- What goes on behind a whole condition goes on with a sign between two operands. -/
theorem not_extra {whole : Expr} {token : Token} (h : Writes .disjunction e front)
    (ht : token.opens = true ∨ token.closes = true) :
    ¬ Writes .disjunction whole (front ++ token :: rest) := by
  intro hw
  obtain ⟨hopens, -⟩ := h.takesTurns_self.of_append hw.takesTurns_self
  obtain rfl : token = .closeParen := by
    cases token <;> simp_all [Token.opens, Token.closes]
  -- The condition in front has closed every parenthesis that it opened.
  obtain ⟨compared, hdone⟩ := h.settles []
  obtain ⟨compared', hrun⟩ := hw.settles []
  rw [Nesting.run?_append, hdone] at hrun
  cases hrun

end Writes

end LoanClosing.Condition
