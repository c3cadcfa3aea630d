import LoanClosing.Proofs.Condition.Token

/-!
# The grammar of conditions

`Writes level e tokens` is the grammar as a relation: the tokens write the condition at a level of
precedence. Parentheses may stand around every part. Whatever tokens write a condition are read back
as that condition, with its precedence and with its chains nested to the left.
-/

namespace LoanClosing.Condition

/-- The levels of precedence, tightest first. -/
inductive Level where
  | operand
  | comparison
  | negation
  | conjunction
  | disjunction

/-- The rows of tokens that write a condition at a level of precedence. -/
inductive Writes : Level → Expr → List Token → Prop
  | literal (value : Literal) : Writes .operand (.literal value) [.literal value]
  | path (segments : List String) : Writes .operand (.path segments) [.path segments]
  | parens {e : Expr} {tokens : List Token} (h : Writes .disjunction e tokens) :
      Writes .operand e (.openParen :: tokens ++ [.closeParen])
  | operand {e : Expr} {tokens : List Token} (h : Writes .operand e tokens) :
      Writes .comparison e tokens
  | compare {left right : Expr} {lefts rights : List Token} (comparison : Comparison)
      (hl : Writes .operand left lefts) (hr : Writes .operand right rights) :
      Writes .comparison (.compare left comparison right) (lefts ++ .compare comparison :: rights)
  | comparison {e : Expr} {tokens : List Token} (h : Writes .comparison e tokens) :
      Writes .negation e tokens
  | not {e : Expr} {tokens : List Token} (h : Writes .negation e tokens) :
      Writes .negation (.not e) (.not :: tokens)
  | negation {e : Expr} {tokens : List Token} (h : Writes .negation e tokens) :
      Writes .conjunction e tokens
  | and {left right : Expr} {lefts rights : List Token} (hl : Writes .conjunction left lefts)
      (hr : Writes .negation right rights) :
      Writes .conjunction (.and left right) (lefts ++ .and :: rights)
  | conjunction {e : Expr} {tokens : List Token} (h : Writes .conjunction e tokens) :
      Writes .disjunction e tokens
  | or {left right : Expr} {lefts rights : List Token} (hl : Writes .disjunction left lefts)
      (hr : Writes .conjunction right rights) :
      Writes .disjunction (.or left right) (lefts ++ .or :: rights)

/-- Whether a token is neither a literal nor a path. -/
def Token.isSign : Token → Bool
  | .literal _ | .path _ => false
  | _ => true

/-- The literals and paths of a condition. -/
def Expr.leaves : Expr → List Token
  | .literal value => [.literal value]
  | .path segments => [.path segments]
  | .not operand => operand.leaves
  | .and left right | .or left right | .compare left _ right => left.leaves ++ right.leaves

namespace Writes

variable {e : Expr} {tokens : List Token}

/-- What writes an operand writes a condition at every level. -/
theorem lift (h : Writes .operand e tokens) (level : Level) : Writes level e tokens := by
  cases level with
  | operand => exact h
  | comparison => exact h.operand
  | negation => exact h.operand.comparison
  | conjunction => exact h.operand.comparison.negation
  | disjunction => exact h.operand.comparison.negation.conjunction

/-- Every condition can be written at every level, with its own literals and paths. -/
theorem exists_tokens (e : Expr) (level : Level) :
    ∃ tokens, Writes level e tokens ∧
      ∀ token ∈ tokens, token.isSign = true ∨ token ∈ e.leaves := by
  -- Parentheses around every part make each level reachable from the loosest one.
  have of_parens : ∀ {e tokens}, Writes .disjunction e tokens → ∀ level,
      Writes level e (.openParen :: tokens ++ [.closeParen]) := fun h level ↦ h.parens.lift level
  suffices h : ∃ tokens, Writes .disjunction e tokens ∧
      ∀ token ∈ tokens, token.isSign = true ∨ token ∈ e.leaves by
    obtain ⟨tokens, hw, ht⟩ := h
    exact ⟨_, of_parens hw level, by grind [Token.isSign]⟩
  induction e with
  | literal value => exact ⟨_, (literal value).lift _, by simp [Expr.leaves]⟩
  | path segments => exact ⟨_, (path segments).lift _, by simp [Expr.leaves]⟩
  | not operand ih =>
    obtain ⟨_, hw, ht⟩ := ih
    exact ⟨_, ((of_parens hw _).not).negation.conjunction, by grind [Expr.leaves, Token.isSign]⟩
  | and left right ihl ihr =>
    obtain ⟨_, hl, htl⟩ := ihl
    obtain ⟨_, hr, htr⟩ := ihr
    exact ⟨_, ((of_parens hl _).and (of_parens hr _)).conjunction,
      by grind [Expr.leaves, Token.isSign]⟩
  | or left right ihl ihr =>
    obtain ⟨_, hl, htl⟩ := ihl
    obtain ⟨_, hr, htr⟩ := ihr
    exact ⟨_, hl.or (of_parens hr _), by grind [Expr.leaves, Token.isSign]⟩
  | compare left comparison right ihl ihr =>
    obtain ⟨_, hl, htl⟩ := ihl
    obtain ⟨_, hr, htr⟩ := ihr
    exact ⟨_, (compare comparison hl.parens hr.parens).comparison.negation.conjunction,
      by grind [Expr.leaves, Token.isSign]⟩

end Writes

/-! ## Operands and signs take turns -/

namespace Token

/-- Whether a token stands where an operand has to come. -/
def opens : Token → Bool
  | .openParen | .not | .literal _ | .path _ => true
  | _ => false

/-- Whether an operand ends with a token. -/
def closes : Token → Bool
  | .closeParen | .literal _ | .path _ => true
  | _ => false

end Token

/-- Operands and the signs between them take turns; the flag says whether an operand comes next. -/
def TakesTurns : Bool → List Token → Prop
  | awaited, [] => awaited = false
  | awaited, token :: tokens => token.opens = awaited ∧ TakesTurns (!token.closes) tokens

/-- In what writes a condition, operands and signs take turns. -/
theorem Writes.takesTurns {level : Level} {e : Expr} {tokens rest : List Token}
    (h : Writes level e tokens) (hr : TakesTurns false rest) :
    TakesTurns true (tokens ++ rest) := by
  induction h generalizing rest with
  | literal | path => exact ⟨rfl, hr⟩
  | parens _ ih =>
    rw [List.append_assoc]
    exact ⟨rfl, ih ⟨rfl, hr⟩⟩
  | operand _ ih | comparison _ ih | negation _ ih | conjunction _ ih => exact ih hr
  | not _ ih => exact ⟨rfl, ih hr⟩
  | compare _ _ _ ihl ihr | and _ _ ihl ihr | or _ _ ihl ihr =>
    rw [List.append_assoc]
    exact ihl ⟨rfl, ihr hr⟩

theorem Writes.takesTurns_self {level : Level} {e : Expr} {tokens : List Token}
    (h : Writes level e tokens) : TakesTurns true tokens := by
  have hnone : TakesTurns false [] := rfl
  simpa using h.takesTurns hnone

end LoanClosing.Condition
