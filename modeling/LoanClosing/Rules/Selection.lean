import LoanClosing.Rules.Context
import LoanClosing.Rules.LoanType
import LoanClosing.Text.Lowercase

/-!
# Selecting documents

Which documents a loan of some type needs: the default ones first, then those of each rule that
matches, in the order of the rules, each document once. A group joins its terms from left to right
without precedence; an empty group holds. Every requirement is evaluated, also where the outcome is
decided already, so that the trace tells about all of them.
-/

namespace LoanClosing

/-- A line about the evaluation, and the rule that it is about. -/
structure TraceEntry where
  rule : Option String
  message : String
  deriving DecidableEq, Repr

/-- The documents selected for a loan. -/
structure Selection where
  documentIds : List String
  trace : List TraceEntry
  deriving DecidableEq, Repr

/-- The lines noted so far, if lines are asked for. -/
structure Tracer where
  entries? : Option (List TraceEntry)
  deriving DecidableEq, Repr

namespace Tracer

/-- No lines yet. -/
def start (trace : Bool) : Tracer := ⟨if trace then some [] else none⟩

/-- Notes a line. -/
def note (tracer : Tracer) (rule : Option String) (message : String) : Tracer :=
  ⟨tracer.entries?.map (· ++ [⟨rule, message⟩])⟩

/-- The lines noted; none if lines are not asked for. -/
def lines (tracer : Tracer) : List TraceEntry := tracer.entries?.getD []

end Tracer

namespace Requirement

/-- How a value is compared: trimmed and in lower case. -/
def folded (value : String) : List Char := Text.lowerChars (Text.trimChars value.toList)

/-- The values to compare with. -/
def expected (requirement : Requirement) : List (List Char) :=
  requirement.expandedValues.map fun value ↦ Text.lowerChars value.toList

/-- Whether a value satisfies an operator. -/
def accepts (operator : Operator) (actual : List Char) (expected : List (List Char)) : Bool :=
  match operator with
  | .equals | .unknown => actual == expected.head?.getD []
  | .notEquals => actual != expected.head?.getD []
  | .oneOf => expected.any (· == actual)
  | .noneOf => !expected.any (· == actual)
  | .contains => expected.any (Text.occursIn · actual)
  | .startsWith => expected.any (·.isPrefixOf actual)
  | .endsWith => expected.any (·.isSuffixOf actual)

/-- The line about a requirement on a field that the context does not have. -/
def missingMessage (requirement : Requirement) : String :=
  "field '" ++ requirement.field ++ "' missing from context"

/-- The line about a requirement whose field was compared. -/
def comparedMessage (requirement : Requirement) (actual : List Char) (result : Bool) : String :=
  requirement.field ++ " " ++ requirement.operator.name ++ " [" ++
    ", ".intercalate (requirement.expected.map String.ofList) ++ "] against '" ++
    String.ofList actual ++ "' => " ++ (if result then "true" else "false")

/-- Evaluates a requirement of a rule and notes a line about it. A requirement on a field that the
context does not have is not met. -/
def evaluate (context : Context) (rule : String) (tracer : Tracer) (requirement : Requirement) :
    Bool × Tracer :=
  match context.get? requirement.field with
  | none => (false, tracer.note (some rule) requirement.missingMessage)
  | some value =>
    let actual := folded value
    let result := accepts requirement.operator actual requirement.expected
    (result, tracer.note (some rule) (requirement.comparedMessage actual result))

end Requirement

/-- Two truth values joined. -/
def Join.apply : Join → Bool → Bool → Bool
  | .or, a, b => a || b
  | .and, a, b | .unknown, a, b => a && b

namespace RuleNode

mutual

/-- Evaluates a part of the condition of a rule. -/
def evaluate (context : Context) (rule : String) (tracer : Tracer) : RuleNode → Bool × Tracer
  | .leaf requirement => requirement.evaluate context rule tracer
  | .group terms => evaluateGroup context rule tracer terms

/-- Evaluates the terms of a group from left to right. -/
def evaluateGroup (context : Context) (rule : String) (tracer : Tracer) :
    RuleGroup → Bool × Tracer
  | [] => (true, tracer)
  | (node, join) :: terms =>
    let (first, tracer) := evaluate context rule tracer node
    evaluateFrom context rule tracer first join terms

/-- Evaluates the terms that are left, given the outcome of those before them and the join that
stands behind the last of those. -/
def evaluateFrom (context : Context) (rule : String) (tracer : Tracer) (outcome : Bool)
    (join : Join) : RuleGroup → Bool × Tracer
  | [] => (outcome, tracer)
  | (node, join') :: terms =>
    let (next, tracer) := evaluate context rule tracer node
    evaluateFrom context rule tracer (join.apply outcome next) join' terms

end

end RuleNode

/-- Evaluates the condition of a rule. -/
def OutputRule.evaluate (context : Context) (tracer : Tracer) (rule : OutputRule) :
    Bool × Tracer :=
  match rule.condition with
  | none => (true, tracer)
  | some terms => RuleNode.evaluateGroup context rule.name tracer terms

/-- A selection under way. -/
structure Draft where
  /-- The documents seen so far, in no order that matters. -/
  seen : List String
  documentIds : List String
  tracer : Tracer
  /-- The documents seen are the documents selected. -/
  mem_seen : ∀ id, id ∈ seen ↔ id ∈ documentIds
  deriving DecidableEq, Repr

namespace Draft

/-- Nothing selected. -/
def start (trace : Bool) : Draft := ⟨[], [], .start trace, fun _ ↦ Iff.rfl⟩

/-- Notes a line. -/
def note (draft : Draft) (rule : Option String) (message : String) : Draft :=
  { draft with tracer := draft.tracer.note rule message }

/-- Selects a document unless it was seen before; tells whether it was not. -/
def push (draft : Draft) (id : String) : Bool × Draft :=
  if draft.seen.contains id then (false, draft)
  else
    (true, { draft with
      seen := id :: draft.seen
      documentIds := draft.documentIds ++ [id]
      mem_seen := fun other ↦ by simp [draft.mem_seen other, or_comm] })

/-- Selects a default document. -/
def addDefault (draft : Draft) (id : String) : Draft :=
  let (new, draft) := draft.push id
  if new then draft.note none ("default document " ++ id) else draft

/-- Selects a document by a rule. -/
def activate (rule : String) (draft : Draft) (id : String) : Draft :=
  let (new, draft) := draft.push id
  draft.note (some rule) (if new then "activated " ++ id else id ++ " already selected")

/-- Evaluates a rule and selects its documents if it matches. -/
def applyRule (context : Context) (draft : Draft) (rule : OutputRule) : Draft :=
  let (matched, tracer) := rule.evaluate context draft.tracer
  let draft := { draft with tracer := tracer }.note (some rule.name)
    ("rule " ++ (if matched then "matched" else "did not match"))
  if matched then rule.documents.foldl (activate rule.name) draft else draft

end Draft

namespace LoanType

/-- The whole evaluation of a loan type. -/
def evaluate (trace : Bool) (loanType : LoanType) (context : Context) : Draft :=
  loanType.rules.foldl (Draft.applyRule context)
    (loanType.defaultDocuments.foldl Draft.addDefault (.start trace))

/-- The documents that a loan needs, with the trace if it is asked for. -/
def select (trace : Bool) (loanType : LoanType) (context : Context) : Selection :=
  let draft := loanType.evaluate trace context
  ⟨draft.documentIds, draft.tracer.lines⟩

end LoanType

namespace Selection

/-- Writes a trace entry. -/
def entryToJson (entry : TraceEntry) : Json :=
  .object ((entry.rule.elim [] fun rule ↦ [("rule", .text rule)]) ++
    [("message", .text entry.message)])

/-- Writes a selection; an empty trace is left out. -/
def toJson (selection : Selection) : Json :=
  .object (("document_ids", .array (selection.documentIds.map .text)) ::
    (if selection.trace.isEmpty then []
      else [("trace", .array (selection.trace.map entryToJson))]))

end Selection

end LoanClosing
