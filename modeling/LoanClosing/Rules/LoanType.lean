import LoanClosing.Json.Decode
import LoanClosing.Text.Blank
import LoanClosing.Text.Ascii

/-!
# Loan types

A loan type says which documents a loan needs: some always, others by rules. A rule names documents
and the condition under which they are needed: a group of terms, each a requirement on one field of
the loan or a group again, and each with the join to the term after it.
-/

namespace LoanClosing

/-- How the value of a field is compared. -/
inductive Operator where
  | equals
  | notEquals
  | oneOf
  | noneOf
  | contains
  | startsWith
  | endsWith
  /-- An operator by any other name, which compares as `equals` does. -/
  | unknown
  deriving DecidableEq, Repr

/-- How a term is joined with the term after it. -/
inductive Join where
  | and
  | or
  /-- A join by any other name, which joins as `and` does. -/
  | unknown
  deriving DecidableEq, Repr

/-- A requirement on the value of one field. -/
structure Requirement where
  field : String
  operator : Operator
  values : List String
  deriving DecidableEq, Repr

/-- A part of a condition. -/
inductive RuleNode where
  | leaf (requirement : Requirement)
  /-- Terms from left to right, each with the join to the term after it. -/
  | group (terms : List (RuleNode × Join))
  deriving Repr

/-- A condition: the terms of the outermost group. -/
abbrev RuleGroup := List (RuleNode × Join)

/-- A rule that activates documents. -/
structure OutputRule where
  name : String
  /-- When the rule matches; always if there is no condition. -/
  condition : Option RuleGroup
  documents : List String
  deriving Repr

/-- A loan type. -/
structure LoanType where
  name : String
  defaultDocuments : List String
  rules : List OutputRule
  deriving Repr

namespace Operator

/-- The name of an operator. -/
def name : Operator → String
  | .equals => "Equals"
  | .notEquals => "NotEquals"
  | .oneOf => "In"
  | .noneOf => "NotIn"
  | .contains => "Contains"
  | .startsWith => "StartsWith"
  | .endsWith => "EndsWith"
  | .unknown => "Unknown"

/-- The operator of a name, which may have several. -/
def ofName : String → Operator
  | "Equals" | "equals" | "=" | "==" => .equals
  | "NotEquals" | "notEquals" | "!=" | "<>" => .notEquals
  | "In" | "in" => .oneOf
  | "NotIn" | "notIn" => .noneOf
  | "Contains" | "contains" => .contains
  | "StartsWith" | "startsWith" => .startsWith
  | "EndsWith" | "endsWith" => .endsWith
  | _ => .unknown

/-- Reads an operator. -/
def decode : Json.Decoder Operator := Json.Decode.variant fun name ↦ .ok (.none (ofName name))

end Operator

namespace Join

/-- The name of a join. -/
def name : Join → String
  | .and => "And"
  | .or => "Or"
  | .unknown => "Unknown"

/-- The join of a name, which may have several. -/
def ofName : String → Join
  | "And" | "and" | "AND" | "&&" => .and
  | "Or" | "or" | "OR" | "||" => .or
  | _ => .unknown

/-- Reads a join. -/
def decode : Json.Decoder Join := Json.Decode.variant fun name ↦ .ok (.none (ofName name))

end Join

namespace Requirement

/-- The values with those that hold commas taken apart, trimmed, and without blank ones. -/
def expandedValues (requirement : Requirement) : List String :=
  ((requirement.values.flatMap fun value ↦ Text.splitAt ',' value.toList).map fun piece ↦
    String.ofList (Text.trimChars piece)).filter (· ≠ "")

/-- Writes a requirement. -/
def toJson (requirement : Requirement) : Json :=
  .object [("field", .text requirement.field), ("operator", .text requirement.operator.name),
    ("values", .array (requirement.values.map .text))]

open Json Json.Decode in
/-- Reads a requirement. -/
def decode : Json.Decoder Requirement := fun source node ↦ do
  let (field, operator, values) ← record "Condition"
    ((required "field" Decode.text).and
      ((defaulted "operator" Operator.decode .equals).and
        (defaulted "values" (list Decode.text) []).only)) source node
  .ok ⟨field, operator, values⟩

end Requirement

namespace RuleNode

mutual

/-- Writes a part of a condition. -/
def toJson : RuleNode → Json
  | .leaf requirement => .object [("leaf", requirement.toJson)]
  | .group terms => .object [("group", .object [("terms", .array (termsToJson terms))])]

/-- Writes terms. -/
def termsToJson : RuleGroup → List Json
  | [] => []
  | (node, join) :: terms =>
    .object [("node", toJson node), ("join_to_next", .text join.name)] :: termsToJson terms

end

open Json Json.Decode in
/-- Reads a group, given how its parts are read. -/
def decodeGroupOf (part : Json.Decoder RuleNode) : Json.Decoder RuleGroup :=
  record "ConditionGroup" (defaulted "terms" (list (record "ConditionTerm"
    ((required "node" part).and (defaulted "join_to_next" Join.decode .and).only))) []).only

open Json Json.Decode in
/-- Reads a part of a condition with at most the given number of groups inside each other. -/
def decodeWithin : Nat → Json.Decoder RuleNode
  | 0 => fun _ node ↦ node.refuse "enum ConditionNode"
  | depth + 1 => variant fun name ↦
    if name = "leaf" then
      .ok (.data fun source node ↦ (Requirement.decode source node).map RuleNode.leaf)
    else if name = "group" then
      .ok (.data fun source node ↦
        (decodeGroupOf (decodeWithin depth) source node).map RuleNode.group)
    else .error (.unknownVariant name ["leaf", "group"])

/-- Reads a group. A tree has no more groups inside each other than it is deep. -/
def decodeGroup : Json.Decoder RuleGroup := fun source node ↦
  decodeGroupOf (decodeWithin (node.height + 1)) source node

end RuleNode

namespace OutputRule

/-- Writes a rule. -/
def toJson (rule : OutputRule) : Json :=
  .object [("name", .text rule.name),
    ("if", rule.condition.elim .null fun terms ↦
      .object [("terms", .array (RuleNode.termsToJson terms))]),
    ("then_generate", .array (rule.documents.map .text))]

open Json Json.Decode in
/-- Reads a rule. -/
def decode : Json.Decoder OutputRule := fun source node ↦ do
  let (name, condition, documents) ← record "OutputRule"
    ((required "name" Decode.text).and
      ((defaulted "if" (option RuleNode.decodeGroup) none).and
        (defaulted "then_generate" (list Decode.text) []).only)) source node
  .ok ⟨name, condition, documents⟩

end OutputRule

namespace LoanType

/-- Writes a loan type. -/
def toJson (loanType : LoanType) : Json :=
  .object [("name", .text loanType.name),
    ("default_documents", .array (loanType.defaultDocuments.map .text)),
    ("rules", .array (loanType.rules.map OutputRule.toJson))]

open Json Json.Decode in
/-- Reads a loan type. -/
def decode : Json.Decoder LoanType := fun source node ↦ do
  let (name, documents, rules) ← record "LoanType"
    ((defaulted "name" Decode.text "").and
      ((defaulted "default_documents" (list Decode.text) []).and
        (defaulted "rules" (list OutputRule.decode) []).only)) source node
  .ok ⟨name, documents, rules⟩

end LoanType

end LoanClosing
