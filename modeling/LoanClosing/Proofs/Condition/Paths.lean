import LoanClosing.Condition.Parser

/-!
# What a condition refers to

A condition, read where certain names are in scope, refers to paths. Two scopes with the same names
in which these paths lead to the same give the condition the same truth value, or the same reason
why it has none.
-/

namespace LoanClosing.Condition

/-- The paths in a condition. -/
def Expr.paths : Expr → List (List String)
  | .literal _ => []
  | .path segments => [segments]
  | .not operand => operand.paths
  | .and left right | .or left right | .compare left _ right => left.paths ++ right.paths

/-- The paths that the text of a condition refers to where the names are in scope; there are none
when it is no condition there. -/
def pathsIn (names : List String) (condition : String) : List (List String) :=
  (parse? (qualify names (normalize condition.toList))).elim [] Expr.paths

variable {scope other : Scope}

/-- A condition sees no more of a scope than where its paths lead. -/
theorem Expr.eval_congr {expr : Expr}
    (h : ∀ path ∈ expr.paths, scope.resolveSegments path = other.resolveSegments path) :
    expr.eval scope = expr.eval other := by
  induction expr with
  | literal value => rfl
  | path segments => simp only [eval, h segments (List.mem_singleton_self _)]
  | not operand ih => simp only [eval, ih h]
  | and left right ihl ihr | or left right ihl ihr | compare left comparison right ihl ihr =>
    have hl := ihl fun path hp ↦ h path (List.mem_append_left _ hp)
    have hr := ihr fun path hp ↦ h path (List.mem_append_right _ hp)
    simp only [eval, hl, hr]

/-- The text of a condition sees no more of a scope than its names and where the paths lead that it
refers to. -/
theorem evaluate_congr {condition : String} (hn : scope.names = other.names)
    (h : ∀ path ∈ pathsIn scope.names condition,
      scope.resolveSegments path = other.resolveSegments path) :
    evaluate scope condition = evaluate other condition := by
  rw [evaluate, evaluate, strictSpelling, strictSpelling, ← hn]
  cases hp : parse? (qualify scope.names (normalize condition.toList)) with
  | none => rfl
  | some expr =>
    rw [pathsIn, hp] at h
    simp only [Expr.eval_congr h]

/-- The same goes for whether it holds. -/
theorem holds_congr {condition : String} (hn : scope.names = other.names)
    (h : ∀ path ∈ pathsIn scope.names condition,
      scope.resolveSegments path = other.resolveSegments path) :
    holds scope condition = holds other condition := by
  rw [holds, holds, evaluate_congr hn h]

end LoanClosing.Condition
