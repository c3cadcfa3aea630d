import LoanClosing.Number.Floating
import LoanClosing.Text.Pattern

/-!
# Fields of log filters

A log directive can ask for a field, or for a field with a value. A value that reads as a truth
value or as a number is one and is shown as one; any other has to be a pattern that can be searched
for, and is shown as written.
-/

namespace LoanClosing

/-- The value that a field must have. -/
inductive LogFieldValue where
  | bool (value : Bool)
  /-- A number of sixty-four bits without a sign. -/
  | natural (value : Nat)
  /-- A number of sixty-four bits with a sign. -/
  | integer (value : Int)
  | floating (value : Floating)
  | pattern (text : String)
  deriving DecidableEq, Repr

namespace LogFieldValue

/-- A written number without a minus sign. -/
def natural? (s : String) : Option LogFieldValue :=
  (Text.readNat? s).bind fun n ↦ if n < Nat.pow 2 64 then some (.natural n) else none

/-- A written number with a sign. -/
def integer? (s : String) : Option LogFieldValue :=
  (Text.readInt? s).bind fun n ↦
    if -Int.pow 2 63 ≤ n ∧ n < Int.pow 2 63 then some (.integer n) else none

/-- A pattern that can be searched for. -/
def pattern? (s : String) : Except Text.PatternProblem LogFieldValue :=
  match Text.Pattern.problem? s with
  | none => .ok (.pattern s)
  | some problem => .error problem

/-- Reads a value: the first kind that it is a text of, and a pattern if there is none. -/
def read (s : String) : Except Text.PatternProblem LogFieldValue :=
  if s = "true" then .ok (.bool true)
  else if s = "false" then .ok (.bool false)
  else
    match natural? s <|> integer? s <|> (Floating.read? s).map LogFieldValue.floating with
    | some number => .ok number
    | none => pattern? s

/-- The text of a value. -/
def text : LogFieldValue → String
  | .bool b => if b then "true" else "false"
  | .natural n => toString n
  | .integer n => toString n
  | .floating x => x.text
  | .pattern s => s

/-- Whether two values are of one kind and the same. -/
def sameValue : LogFieldValue → LogFieldValue → Bool
  | .floating x, .floating y => x.sameValue y
  | x, y => x == y

end LogFieldValue

/-- A field that a span or an event must have. -/
structure LogField where
  name : String
  /-- The value that it must have. -/
  value : Option LogFieldValue
  deriving DecidableEq, Repr

namespace LogField

/-- Reads a field: a name, and a value behind an equals sign. What follows a second equals sign is
dropped. -/
def read (cs : List Char) : Except Text.PatternProblem LogField :=
  match (Text.splitAt '=' cs).map String.ofList with
  | [] => .ok ⟨"", none⟩
  | [name] => .ok ⟨name, none⟩
  | name :: value :: _ => (LogFieldValue.read value).map fun value ↦ ⟨name, some value⟩

/-- The text of a field. -/
def text (field : LogField) : String :=
  match field.value with
  | none => field.name
  | some value => field.name ++ "=" ++ value.text

/-- Whether two fields have one name and the same value. -/
def same (a b : LogField) : Bool :=
  a.name == b.name &&
    match a.value, b.value with
    | none, none => true
    | some x, some y => x.sameValue y
    | _, _ => false

end LogField

end LoanClosing
