import LoanClosing.Proofs.Rules.Offered

/-!
# The trace tells everything

The lines about a loan type are those of its default documents at their first occurrences and then,
rule by rule, one for each requirement, one for the outcome, and one for each document if the rule
matches. Without being asked for there are none.
-/

namespace LoanClosing

namespace Requirement

variable {context : Context} {requirement : Requirement}

/-- A line about a missing field is never the line about a comparison: they end differently. -/
theorem comparedMessage_ne_missingMessage (actual : List Char) (result : Bool) :
    requirement.comparedMessage actual result ≠ requirement.missingMessage := by
  have hmissing : requirement.missingMessage.toList.getLast? = some 't' := by
    rw [missingMessage, String.toList_append, List.getLast?_append]
    rfl
  have hcompared : (requirement.comparedMessage actual result).toList.getLast? = some 'e' := by
    rw [comparedMessage, String.toList_append, List.getLast?_append]
    cases result <;> rfl
  intro h
  rw [h, hmissing] at hcompared
  exact absurd hcompared (by decide)

theorem message_eq_missingMessage_iff :
    requirement.message context = requirement.missingMessage ↔
      context.get? requirement.field = none := by
  rw [message]
  cases context.get? requirement.field with
  | none => simp
  | some value => simp [comparedMessage_ne_missingMessage]

theorem message_of_get?_eq_some {value : String}
    (h : context.get? requirement.field = some value) :
    requirement.message context =
      requirement.comparedMessage (folded value) (requirement.holds context) := by
  rw [message, h]

end Requirement

namespace LoanType

/-- The trace has one line for each default document at its first occurrence, and then for each rule
one line for each requirement in its condition from left to right, whatever the outcomes are, one
line that says whether it matched, and only if it did one line for each of its documents, which says
whether that was offered before: as a default document, by an earlier rule that matched, or earlier
by this one. The line about a requirement says that the field is missing exactly if the context does
not have it, and ends in the outcome of its evaluation otherwise; a rule matches if it has no
condition or one that evaluates to true. The trace is empty if it is not asked for. -/
theorem trace_select (loanType : LoanType) (context : Context) :
    (loanType.select true context).trace =
      (loanType.defaultDocuments.eraseDups.map fun id ↦ ⟨none, "default document " ++ id⟩) ++
        (loanType.rules.mapIdx fun i rule ↦
          let before := loanType.defaultDocuments ++
            ((loanType.rules.take i).filter (OutputRule.matchesIn context)).flatMap
              OutputRule.documents
          (rule.requirements.map fun requirement ↦
            ⟨some rule.name, requirement.message context⟩) ++
          ⟨some rule.name,
            if rule.matchesIn context then "rule matched" else "rule did not match"⟩ ::
          if rule.matchesIn context then
            rule.documents.mapIdx fun j id ↦ ⟨some rule.name,
              if id ∈ before ++ rule.documents.take j then id ++ " already selected"
              else "activated " ++ id⟩
          else []).flatten ∧
    (loanType.select false context).trace = [] ∧
    (∀ requirement : Requirement, requirement.message context = requirement.missingMessage ↔
      context.get? requirement.field = none) ∧
    (∀ (requirement : Requirement) value rule tracer,
      context.get? requirement.field = some value →
        requirement.message context = requirement.comparedMessage (Requirement.folded value)
          (requirement.evaluate context rule tracer).1) ∧
    ∀ (rule : OutputRule) tracer, rule.matchesIn context = true ↔
      ∀ terms, rule.condition = some terms →
        (RuleNode.evaluateGroup context rule.name tracer terms).1 = true := by
  refine ⟨?_, ?_, fun _ ↦ Requirement.message_eq_missingMessage_iff, ?_, ?_⟩
  · rw [select_eq]
    rfl
  · rw [select_eq]
    rfl
  · intro requirement value rule tracer h
    rw [Requirement.message_of_get?_eq_some h, requirement.evaluate_eq]
  · exact fun rule tracer ↦ rule.matchesIn_eq_true_iff tracer

/-- The line about a field that is found under another spelling of its name. -/
theorem trace_select_state :
    let context : Context := ⟨[("state", " ca ")]⟩
    let requirement : Requirement := ⟨"State", .equals, ["CA"]⟩
    context.get? requirement.field = some " ca " ∧
      requirement.message context = "State Equals [ca] against 'ca' => true" := by
  intro context requirement
  have hvalue : context.get? requirement.field = some " ca " := by decide
  have hline := (trace_select ⟨"Purchase", ["Note"], []⟩ context).2.2.2.1 requirement " ca "
    "State rider" (.start true) hvalue
  exact ⟨hvalue, hline.trans (by decide)⟩

example :
    (select true ⟨"Purchase", ["Note"],
      [⟨"Riders", some [(.leaf ⟨"State", .equals, ["CA"]⟩, .or),
        (.leaf ⟨"County", .equals, ["Kern"]⟩, .and)], ["Rider", "Note"]⟩]⟩
      ⟨[("state", " ca ")]⟩).trace =
      [⟨none, "default document Note"⟩,
        ⟨some "Riders", "State Equals [ca] against 'ca' => true"⟩,
        ⟨some "Riders", "field 'County' missing from context"⟩,
        ⟨some "Riders", "rule matched"⟩,
        ⟨some "Riders", "activated Rider"⟩,
        ⟨some "Riders", "Note already selected"⟩] := by
  decide

end LoanType

end LoanClosing
