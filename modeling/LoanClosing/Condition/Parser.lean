import LoanClosing.Condition.Reader

/-!
# Reading a condition

The grammar, loosest first:

* a disjunction is conjunctions with `or` between them,
* a conjunction is negations with `and` between them,
* a negation is `not` before a negation, or a comparison,
* a comparison is one operand, or two with a comparison sign between them,
* an operand is a disjunction in parentheses, a literal or a path.

Chains of `or` and of `and` nest to the left. Each rule is read from the front of the text and gives
back the rest. A sign behind which the rule cannot go on is left where it stands, so that the rule
ends in front of it; a condition is read when nothing is left.
-/

namespace LoanClosing.Condition

mutual

/-- A disjunction at the front. -/
def disjunction? (cs : List Char) : Option (Expr × Shorter cs) := do
  let (first, ⟨rest, h⟩) ← conjunction? cs
  let (expr, ⟨rest', h'⟩) := moreDisjuncts first rest
  some (expr, ⟨rest', Nat.lt_of_le_of_lt h' h⟩)
termination_by (cs.length, 7)

/-- What has been read, and as many conjunctions behind it as there are. -/
def moreDisjuncts (left : Expr) (cs : List Char) : Expr × NoLonger cs :=
  match pair (spaced orSign? cs) fun rest _ ↦ conjunction? rest with
  | none => (left, ⟨cs, Nat.le_refl _⟩)
  | some ((_, right), ⟨rest, h⟩) =>
    let (expr, ⟨rest', h'⟩) := moreDisjuncts (.or left right) rest
    (expr, ⟨rest', Nat.le_trans h' (Nat.le_of_lt h)⟩)
termination_by (cs.length, 6)

/-- A conjunction at the front. -/
def conjunction? (cs : List Char) : Option (Expr × Shorter cs) := do
  let (first, ⟨rest, h⟩) ← negation? cs
  let (expr, ⟨rest', h'⟩) := moreConjuncts first rest
  some (expr, ⟨rest', Nat.lt_of_le_of_lt h' h⟩)
termination_by (cs.length, 5)

/-- What has been read, and as many negations behind it as there are. -/
def moreConjuncts (left : Expr) (cs : List Char) : Expr × NoLonger cs :=
  match pair (spaced andSign? cs) fun rest _ ↦ negation? rest with
  | none => (left, ⟨cs, Nat.le_refl _⟩)
  | some ((_, right), ⟨rest, h⟩) =>
    let (expr, ⟨rest', h'⟩) := moreConjuncts (.and left right) rest
    (expr, ⟨rest', Nat.le_trans h' (Nat.le_of_lt h)⟩)
termination_by (cs.length, 4)

/-- A negation at the front. -/
def negation? (cs : List Char) : Option (Expr × Shorter cs) :=
  match pair (spaced notSign? cs) fun rest _ ↦ negation? rest with
  | some ((_, expr), rest) => some (.not expr, rest)
  | none => comparison? cs
termination_by (cs.length, 3)

/-- A comparison at the front. -/
def comparison? (cs : List Char) : Option (Expr × Shorter cs) := do
  let (left, ⟨rest, h⟩) ← operand? cs
  match pair (spaced compareSign? rest) fun rest' _ ↦ operand? rest' with
  | some ((comparison, right), ⟨rest', h'⟩) =>
    some (.compare left comparison right, ⟨rest', Nat.lt_trans h' h⟩)
  | none => some (left, ⟨rest, h⟩)
termination_by (cs.length, 2)

/-- An operand at the front, with a gap before and behind it. -/
def operand? (cs : List Char) : Option (Expr × Shorter cs) :=
  betweenGaps (parenthesized? (skipGap cs) <|> atom? (skipGap cs))
termination_by (cs.length, 1)
decreasing_by exact Prod.Lex.right' _ (length_skipGap_le cs) Nat.zero_lt_one

/-- A disjunction in parentheses at the front. -/
def parenthesized? (cs : List Char) : Option (Expr × Shorter cs) :=
  match cs with
  | '(' :: rest => do
    let ((expr, _), ⟨rest', h⟩) ← pair (disjunction? rest) fun rest' _ ↦ char? ')' rest'
    some (expr, ⟨rest', Nat.lt_succ_of_lt h⟩)
  | _ => none
termination_by (cs.length, 0)

end

/-- Reads a condition in its strict spelling. -/
def parse? (cs : List Char) : Option Expr :=
  match spaced disjunction? cs with
  | some (expr, ⟨[], _⟩) => some expr
  | _ => none

/-- The strict spelling of a condition in a scope. -/
def strictSpelling (scope : Scope) (condition : String) : List Char :=
  qualify scope.names (normalize condition.toList)

/-- The truth of a condition in a scope. -/
def evaluate (scope : Scope) (condition : String) : Except Failure Bool :=
  match parse? (strictSpelling scope condition) with
  | none => .error (.illFormed condition)
  | some expr => do
    let value ← expr.eval scope
    truth value

/-- Whether a condition holds in a scope; one without a truth value does not. -/
def holds (scope : Scope) (condition : String) : Bool :=
  match evaluate scope condition with
  | .ok flag => flag
  | .error _ => false

end LoanClosing.Condition
