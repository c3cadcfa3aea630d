import LoanClosing.Date
import LoanClosing.Json.Decode
import LoanClosing.Number.Decimal

/-!
# Loan data

The values that loan data are made of. A map is a collection under keys of its own, an object a
record with named members; both look names up exactly first and without regard to ASCII case second.
An enumeration and a list have members that are not stored.
-/

namespace LoanClosing

/-- A choice among named alternatives, any part of which may be unset. -/
structure EnumValue where
  name : Option String
  value : Option Int64
  description : Option String
  deriving DecidableEq, Repr

/-- A value of the loan data. -/
inductive Value where
  | null
  | bool (flag : Bool)
  | number (amount : Decimal)
  | text (text : String)
  | date (date : Date)
  | enum (choice : EnumValue)
  | list (items : List Value)
  /-- A collection, in byte order of its keys. -/
  | map (entries : List (String × Value))
  /-- A record, in the order of its members. -/
  | object (members : List (String × Value))
  deriving Repr, Inhabited

namespace EnumValue

/-- A member of a choice: null when the part is unset. -/
def member? (choice : EnumValue) (segment : String) : Option Value :=
  if Text.sameFolded segment "description" then
    some (choice.description.elim .null .text)
  else if Text.sameFolded segment "name" then some (choice.name.elim .null .text)
  else if Text.sameFolded segment "value" then
    some (choice.value.elim .null fun n ↦ .number (.ofInt64 n))
  else none

/-- The text of a choice: its description, else its name, else its number. -/
def render (choice : EnumValue) : String :=
  match choice.description, choice.name, choice.value with
  | some text, _, _ => text
  | none, some text, _ => text
  | none, none, some n => toString n.toInt
  | none, none, none => ""

open Json.Decode in
/-- The fields of a choice, all of which may be left out. -/
def decode : Json.Decoder EnumValue := fun source node ↦ do
  let (name, value, description) ← record "EnumValue"
    ((defaulted "name" (option text) none).and
      ((defaulted "value" (option int64) none).and
        (defaulted "description" (option text) none).only)) source node
  .ok ⟨name, value, description⟩

end EnumValue

namespace Value

/-- Looks a name up, exactly first and without regard to ASCII case second. -/
def lookup? {α : Type} (name : String) (entries : List (String × α)) : Option α :=
  (Table.find? name entries).or (Table.findWhere? (Text.sameFolded · name) entries)

/-- The member that a segment of a path names. -/
def member? (segment : String) : Value → Option Value
  | .enum choice => choice.member? segment
  | .map entries => lookup? segment entries
  | .object members => lookup? segment members
  | .list items =>
    if Text.sameFolded segment "count" then some (.number (.ofCount items.length)) else none
  | _ => none

/-- The member at the end of a path. -/
def descend : List String → Value → Option Value
  | [], value => some value
  | segment :: segments, value => (value.member? segment).bind (descend segments)

/-- The text that stands for a value in a document. -/
def render : Value → String
  | .null | .list _ | .map _ | .object _ => ""
  | .bool flag => if flag then "true" else "false"
  | .number amount => amount.text
  | .text s => s
  | .date day => day.text
  | .enum choice => choice.render

/-- The name of the kind of a value. -/
def kind : Value → String
  | .null => "null"
  | .bool _ => "boolean"
  | .number _ => "number"
  | .text _ => "text"
  | .date _ => "date"
  | .enum _ => "enum"
  | .list _ => "list"
  | .map _ => "map"
  | .object _ => "object"

/-! ## From JSON -/

/-- The amount that a JSON number stands for, or null when it has no exact decimal of that size. -/
def ofNumber (n : Json.Number) : Value := (Decimal.read? n.text).elim .null .number

mutual

/-- The value that JSON data stand for. An object with the single key `$enum`, `$map` or `$date` is
a choice, a map or a date when it holds one. -/
def ofJson : Json → Value
  | .null => .null
  | .bool flag => .bool flag
  | .number n => ofNumber n
  | .text s => .text s
  | .array items => .list (ofItems items)
  | .object [("$map", .object entries)] => .map (ofMembers entries)
  | .object [("$enum", choice)] =>
    match Json.decodeValue EnumValue.decode choice with
    | .ok choice => .enum choice
    | .error _ => .object [("$enum", ofJson choice)]
  | .object [("$date", .text s)] =>
    match Date.read? s with
    | some day => .date day
    | none => .object [("$date", .text s)]
  | .object members => .object (ofMembers members)

/-- The values of items. -/
def ofItems : List Json → List Value
  | [] => []
  | item :: items => ofJson item :: ofItems items

/-- The values of members. -/
def ofMembers : List (String × Json) → List (String × Value)
  | [] => []
  | (key, value) :: members => (key, ofJson value) :: ofMembers members

end

/-- Reads a value. -/
def decode : Json.Decoder Value := fun source node ↦ (Json.Decode.json source node).map ofJson

/-! ## Equality -/

mutual

/-- A value with the members of its objects in byte order of their names. -/
def arranged : Value → Value
  | .list items => .list (arrangedItems items)
  | .map entries => .map (arrangedEntries entries)
  | .object members => .object (Table.sorted (arrangedEntries members))
  | value => value

/-- Items with the members of their objects in byte order. -/
def arrangedItems : List Value → List Value
  | [] => []
  | item :: items => arranged item :: arrangedItems items

/-- Entries with the members of their objects in byte order. -/
def arrangedEntries : List (String × Value) → List (String × Value)
  | [] => []
  | (key, value) :: entries => (key, arranged value) :: arrangedEntries entries

end

mutual

/-- Equality of two values part by part, where amounts compare by value. -/
def agrees : Value → Value → Bool
  | .null, .null => true
  | .bool a, .bool b => a == b
  | .number a, .number b => a.sameValue b
  | .text a, .text b => a == b
  | .date a, .date b => a == b
  | .enum a, .enum b => a == b
  | .list a, .list b => agreesItems a b
  | .map a, .map b | .object a, .object b => agreesEntries a b
  | _, _ => false

/-- Equality of lists, item by item. -/
def agreesItems : List Value → List Value → Bool
  | [], [] => true
  | a :: as, b :: bs => agrees a b && agreesItems as bs
  | _, _ => false

/-- Equality of tables, entry by entry. -/
def agreesEntries : List (String × Value) → List (String × Value) → Bool
  | [], [] => true
  | (k, a) :: as, (l, b) :: bs => k == l && agrees a b && agreesEntries as bs
  | _, _ => false

end

/-- Equality of two values: amounts compare by value and the members of an object in any order. -/
def sameAs (a b : Value) : Bool := agrees a.arranged b.arranged

/-! ## Setting a member -/

/-- Sets the member at the end of a path of exact names. Objects that are missing on the way are
created; when something on the way is not an object, nothing changes. -/
def setMember (new : Value) : List String → Value → Value
  | [key], .object members => .object (Table.put key new members)
  | key :: next :: path, .object members =>
    let inner := (Table.find? key members).getD (.object [])
    .object (Table.put key (setMember new (next :: path) inner) members)
  | _, value => value

end Value

end LoanClosing
