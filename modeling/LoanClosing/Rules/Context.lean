import LoanClosing.Json.Decode
import LoanClosing.Json.Printer
import LoanClosing.Text.Blank
import LoanClosing.Text.Ascii

/-!
# Evaluation contexts

What the rules know about a loan: texts under keys, in the order in which keys were first inserted.
A key is looked up as it is first, and then without regard to blanks around it and ASCII case, where
the key inserted first wins.
-/

namespace LoanClosing

/-- A context. -/
structure Context where
  /-- The values under their keys, in the order of insertion. -/
  entries : List (String × String)
  deriving DecidableEq, Repr

namespace Context

/-- The context that knows nothing. -/
def empty : Context := ⟨[]⟩

/-- Inserts a value; a key that is there already keeps its place. -/
def insert (context : Context) (key value : String) : Context :=
  ⟨Table.put key value context.entries⟩

/-- The context after several insertions. -/
def ofList (entries : List (String × String)) : Context :=
  entries.foldl (fun context (key, value) ↦ context.insert key value) empty

/-- Whether two keys are the same up to blanks around them and ASCII case. -/
def sameKey (a b : String) : Bool := Text.sameFolded (Text.trim a) (Text.trim b)

/-- The value under a key. -/
def get? (context : Context) (key : String) : Option String :=
  (Table.find? key context.entries).or (Table.findWhere? (sameKey · key) context.entries)

/-- The number of keys. -/
def size (context : Context) : Nat := context.entries.length

/-- The text of a value that is no list and no object. -/
def scalarText? : Json → Option String
  | .null => some ""
  | .bool flag => some (if flag then "true" else "false")
  | .number n => some n.text
  | .text s => some s
  | .array _ | .object _ => none

/-- The context of an object: its members that are no lists and no objects. -/
def ofJson : Json → Context
  | .object members =>
    ofList (members.filterMap fun (key, value) ↦ (scalarText? value).map (key, ·))
  | _ => empty

/-- Writes a context. -/
def toJson (context : Context) : Json :=
  .object (context.entries.map fun (key, value) ↦ (key, .text value))

/-- Reads a context in the order of the text. -/
def decode : Json.Decoder Context := fun source node ↦
  (Json.Decode.table Json.Decode.text source node).map ofList

end Context

end LoanClosing
