import LoanClosing.Rules.Selection

/-!
# What an evaluation comes to

A condition is evaluated and told about in one walk. Its outcome is that of its requirements joined
from left to right, whatever was noted before, and the walk notes one line for each requirement, in
order and whatever the outcomes are.
-/

namespace LoanClosing

namespace Tracer

/-- Notes several lines. -/
def append (tracer : Tracer) (entries : List TraceEntry) : Tracer :=
  ⟨tracer.entries?.map (· ++ entries)⟩

theorem note_eq (tracer : Tracer) (rule : Option String) (message : String) :
    tracer.note rule message = tracer.append [⟨rule, message⟩] := rfl

@[simp] theorem append_nil (tracer : Tracer) : tracer.append [] = tracer := by
  obtain ⟨entries?⟩ := tracer
  cases entries? <;> simp [append]

@[simp] theorem append_append (tracer : Tracer) (entries more : List TraceEntry) :
    (tracer.append entries).append more = tracer.append (entries ++ more) := by
  simp [append, Function.comp_def]

/-- The lines noted from the start are there exactly if lines are asked for. -/
theorem lines_append_start (trace : Bool) (entries : List TraceEntry) :
    ((start trace).append entries).lines = if trace then entries else [] := by
  cases trace <;> rfl

end Tracer

namespace Requirement

/-- Whether a requirement is met in a context; one on a field that is missing is not. -/
def holds (context : Context) (requirement : Requirement) : Bool :=
  match context.get? requirement.field with
  | none => false
  | some value => accepts requirement.operator (folded value) requirement.expected

/-- The line about a requirement. -/
def message (context : Context) (requirement : Requirement) : String :=
  match context.get? requirement.field with
  | none => requirement.missingMessage
  | some value => requirement.comparedMessage (folded value) (requirement.holds context)

/-- Evaluating a requirement notes one line, which ends in the outcome if there is one. -/
theorem evaluate_eq (context : Context) (rule : String) (tracer : Tracer)
    (requirement : Requirement) :
    requirement.evaluate context rule tracer =
      (requirement.holds context, tracer.append [⟨some rule, requirement.message context⟩]) := by
  rw [evaluate, message, holds]
  cases context.get? requirement.field <;> rfl

end Requirement

namespace Join

/-- The outcome of the terms so far joined with the terms after them. -/
def foldFrom (outcome : Bool) (join : Join) : List (Bool × Join) → Bool
  | [] => outcome
  | (next, join') :: terms => foldFrom (join.apply outcome next) join' terms

/-- The outcome of terms from left to right. The join of the last term does not matter. -/
def fold : List (Bool × Join) → Bool
  | [] => true
  | (first, join) :: terms => foldFrom first join terms

end Join

namespace RuleNode

mutual

/-- Whether a part of a condition holds in a context. -/
def holds (context : Context) : RuleNode → Bool
  | .leaf requirement => requirement.holds context
  | .group terms => Join.fold (outcomes context terms)

/-- The outcome of each term. -/
def outcomes (context : Context) : RuleGroup → List (Bool × Join)
  | [] => []
  | (node, join) :: terms => (holds context node, join) :: outcomes context terms

end

mutual

/-- The requirements in a part of a condition, from left to right. -/
def requirements : RuleNode → List Requirement
  | .leaf requirement => [requirement]
  | .group terms => requirementsOf terms

/-- The requirements in terms, from left to right. -/
def requirementsOf : RuleGroup → List Requirement
  | [] => []
  | (node, _) :: terms => requirements node ++ requirementsOf terms

end

/-- The lines about requirements of a rule. -/
def linesOf (context : Context) (rule : String) (requirements : List Requirement) :
    List TraceEntry :=
  requirements.map fun requirement ↦ ⟨some rule, requirement.message context⟩

theorem linesOf_append (context : Context) (rule : String) (requirements more : List Requirement) :
    linesOf context rule (requirements ++ more) =
      linesOf context rule requirements ++ linesOf context rule more :=
  List.map_append

mutual

/-- Evaluating a part of a condition gives its outcome and notes a line about each requirement in
it. -/
theorem evaluate_eq (context : Context) (rule : String) (tracer : Tracer) (node : RuleNode) :
    evaluate context rule tracer node =
      (holds context node, tracer.append (linesOf context rule (requirements node))) := by
  cases node with
  | leaf requirement =>
    rw [evaluate, holds, requirements, requirement.evaluate_eq]
    rfl
  | group terms =>
    rw [evaluate, holds, requirements, evaluateGroup_eq]

theorem evaluateGroup_eq (context : Context) (rule : String) (tracer : Tracer)
    (terms : RuleGroup) :
    evaluateGroup context rule tracer terms =
      (Join.fold (outcomes context terms),
        tracer.append (linesOf context rule (requirementsOf terms))) := by
  match terms with
  | [] =>
    rw [evaluateGroup, outcomes, requirementsOf, linesOf, List.map_nil, tracer.append_nil]
    rfl
  | (node, join) :: terms =>
    rw [evaluateGroup, evaluate_eq, outcomes, requirementsOf, linesOf_append,
      ← Tracer.append_append]
    exact evaluateFrom_eq context rule _ _ join terms

theorem evaluateFrom_eq (context : Context) (rule : String) (tracer : Tracer) (outcome : Bool)
    (join : Join) (terms : RuleGroup) :
    evaluateFrom context rule tracer outcome join terms =
      (Join.foldFrom outcome join (outcomes context terms),
        tracer.append (linesOf context rule (requirementsOf terms))) := by
  match terms with
  | [] =>
    rw [evaluateFrom, outcomes, requirementsOf, linesOf, List.map_nil, tracer.append_nil]
    rfl
  | (node, join') :: terms =>
    rw [evaluateFrom, evaluate_eq, outcomes, requirementsOf, linesOf_append,
      ← Tracer.append_append]
    exact evaluateFrom_eq context rule _ _ join' terms

end

end RuleNode

/-! ### Rules -/

namespace OutputRule

/-- Whether a rule matches in a context: it has no condition, or one that holds. -/
def matchesIn (context : Context) (rule : OutputRule) : Bool :=
  rule.condition.all fun terms ↦ RuleNode.holds context (.group terms)

theorem matchesIn_eq_true_iff {context : Context} (rule : OutputRule) (tracer : Tracer) :
    rule.matchesIn context = true ↔ ∀ terms, rule.condition = some terms →
      (RuleNode.evaluateGroup context rule.name tracer terms).1 = true := by
  rw [matchesIn]
  cases rule.condition with
  | none => simp
  | some terms => simp [RuleNode.evaluateGroup_eq, RuleNode.holds]

/-- The requirements of a rule, from left to right. -/
def requirements (rule : OutputRule) : List Requirement :=
  rule.condition.elim [] RuleNode.requirementsOf

/-- Evaluating a rule tells whether it matches and notes a line about each of its requirements. -/
theorem evaluate_eq (context : Context) (tracer : Tracer) (rule : OutputRule) :
    rule.evaluate context tracer =
      (rule.matchesIn context,
        tracer.append (RuleNode.linesOf context rule.name rule.requirements)) := by
  rw [evaluate, matchesIn, requirements]
  cases rule.condition with
  | none => exact congrArg _ tracer.append_nil.symm
  | some terms =>
    rw [Option.all_some, RuleNode.holds]
    exact RuleNode.evaluateGroup_eq context rule.name tracer terms

end OutputRule

end LoanClosing
