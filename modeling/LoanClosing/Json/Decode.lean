import LoanClosing.Json.Node
import LoanClosing.Text.Quoted

/-!
# Reading typed data out of JSON

Readers that turn the tree of a text, or of a value, into data of a given shape. All of them walk in
the order of the text, so that of several faults the first one is reported. Data of one shape have
two written forms: a record is an object with the fields by name or an array with the fields in
order, and a variant is its name or an object whose only key is the name.
-/

namespace LoanClosing.Json

/-- Where a tree comes from: a few faults are told differently in a text and in a value. -/
inductive Source where
  | text
  | value
  deriving DecidableEq, Repr

/-- What was found where something else was expected. -/
inductive Found where
  | null
  | bool (value : Bool)
  | number (value : Number)
  | text (value : String)
  | array
  | object
  | bareVariant
  deriving DecidableEq, Repr

/-- Why data could not be read. -/
inductive DecodeError where
  /-- The text is not JSON. -/
  | malformed (fault : Fault)
  | wrongType (found : Found) (expected : String)
  | wrongValue (found : Found) (expected : String)
  | wrongLength (length : Nat) (expected : String)
  | missingField (name : String)
  | duplicateField (name : String)
  | unknownVariant (name : String) (known : List String)
  deriving DecidableEq, Repr

namespace Found

/-- A number, and whether it is whole. -/
def numberText (n : Number) : String :=
  (match n with
    | .integer _ => "integer `"
    | .float _ => "floating point `") ++ n.text ++ "`"

/-- What was found, in words. -/
def message : Found → String
  | .null => "null"
  | .bool true => "boolean `true`"
  | .bool false => "boolean `false`"
  | .number n => numberText n
  | .text s => "string " ++ Text.quoted s
  | .array => "sequence"
  | .object => "map"
  | .bareVariant => "unit variant"

end Found

namespace DecodeError

/-- The kind of an error. -/
def category : DecodeError → Category
  | .malformed fault => fault.category
  | _ => .data

/-- The names that were possible, in words. -/
def alternatives (names : List String) : String :=
  match names.map fun name ↦ "`" ++ name ++ "`" with
  | [] => ""
  | [a] => a
  | [a, b] => a ++ " or " ++ b
  | names => "one of " ++ ", ".intercalate names

/-- The text of an error. -/
def message : DecodeError → String
  | .malformed fault => fault.message
  | .wrongType found expected => "invalid type: " ++ found.message ++ ", expected " ++ expected
  | .wrongValue found expected => "invalid value: " ++ found.message ++ ", expected " ++ expected
  | .wrongLength length expected =>
    "invalid length " ++ toString length ++ ", expected " ++ expected
  | .missingField name => "missing field `" ++ name ++ "`"
  | .duplicateField name => "duplicate field `" ++ name ++ "`"
  | .unknownVariant name known =>
    "unknown variant `" ++ name ++ "`, expected " ++ alternatives known

end DecodeError

/-- A reader of data. -/
abbrev Decoder (α : Type) := Source → Node → Except DecodeError α

/-- Reports a fault of the text. -/
def orMalformed {α : Type} : Except Fault α → Except DecodeError α
  | .ok a => .ok a
  | .error fault => .error (.malformed fault)

namespace Node

/-- What stands at a node. -/
def found : Node → Except Fault Found
  | .null => .ok .null
  | .bool b => .ok (.bool b)
  | .number n => n.map .number
  | .text s => s.map .text
  | .array .. => .ok .array
  | .object .. => .ok .object
  | .deep inner => found inner
  | .broken strict .. => .error strict

/-- Reports that something else was expected. -/
def refuse {α : Type} (expected : String) (node : Node) : Except DecodeError α :=
  match node.found with
  | .ok found => .error (.wrongType found expected)
  | .error fault => .error (.malformed fault)

mutual

/-- Passes over a node: only what breaks the text is a fault. -/
def skip : Node → Except Fault Unit
  | .null | .bool _ | .number _ | .text _ => .ok ()
  | .array items ending => do skipItems items; endOf ending
  | .object members ending => do skipMembers members; endOf ending
  | .deep inner => skip inner
  | .broken _ lenient _ => .error lenient
where
  /-- The fault a container ends with. -/
  endOf : Option Fault → Except Fault Unit
    | none => .ok ()
    | some fault => .error fault

/-- Passes over items. -/
def skipItems : List Node → Except Fault Unit
  | [] => .ok ()
  | item :: items => do skip item; skipItems items

/-- Passes over members; what a key holds does not matter. -/
def skipMembers : List (Key × Node) → Except Fault Unit
  | [] => .ok ()
  | (.error .keyIsNoText, _) :: _ => .error .keyIsNoText
  | (_, value) :: members => do skip value; skipMembers members

end

end Node

namespace Decode

/-! ## Texts, flags, lists -/

/-- The end of a container. -/
def ending : Option Fault → Except DecodeError Unit
  | none => .ok ()
  | some fault => .error (.malformed fault)

/-- A text. -/
def text : Decoder String := fun _ node ↦
  match node with
  | .text s => orMalformed s
  | node => node.refuse "a string"

/-- A flag. -/
def bool : Decoder Bool := fun _ node ↦
  match node with
  | .bool b => .ok b
  | node => node.refuse "a boolean"

/-- A whole number of sixty-four bits. -/
def int64 : Decoder Int64 := fun _ node ↦
  match node with
  | .number (.ok (.integer n)) =>
    if Int64.minValue.toInt ≤ n ∧ n ≤ Int64.maxValue.toInt then .ok (Int64.ofInt n)
    else .error (.wrongValue (.number (.integer n)) "i64")
  | node => node.refuse "i64"

/-- Data that may be null. -/
def option {α : Type} (decode : Decoder α) : Decoder (Option α) := fun source node ↦
  match node with
  | .null => .ok none
  | node => (decode source node).map some

/-- The items of a list. -/
def items {α : Type} (decode : Decoder α) (source : Source) :
    List Node → Except DecodeError (List α)
  | [] => .ok []
  | node :: nodes => do
    let a ← decode source node
    let as ← items decode source nodes
    .ok (a :: as)

/-- A list. -/
def list {α : Type} (decode : Decoder α) : Decoder (List α) := fun source node ↦
  match node with
  | .array nodes fault => do
    let as ← items decode source nodes
    ending fault
    .ok as
  | .deep (.array ..) => .error (.malformed .tooDeep)
  | node => node.refuse "a sequence"

/-- The members of a table, in the order of the text. -/
def members {α : Type} (decode : Decoder α) (source : Source) :
    List (Node.Key × Node) → Except DecodeError (List (String × α))
  | [] => .ok []
  | (key, node) :: nodes => do
    let key ← orMalformed key
    let a ← decode source node
    let as ← members decode source nodes
    .ok ((key, a) :: as)

/-- A table, in the order of the text. -/
def table {α : Type} (decode : Decoder α) : Decoder (List (String × α)) := fun source node ↦
  match node with
  | .object nodes fault => do
    let entries ← members decode source nodes
    ending fault
    .ok entries
  | .deep (.object ..) => .error (.malformed .tooDeep)
  | node => node.refuse "a map"

/-! ## Any value -/

mutual

/-- The value of a tree. -/
def valueOf : Node → Except Fault Json
  | .null => .ok .null
  | .bool b => .ok (.bool b)
  | .number n => n.map .number
  | .text s => s.map .text
  | .array nodes fault => do
    let items ← valuesOf nodes
    Node.skip.endOf fault
    .ok (.array items)
  | .object nodes fault => do
    let members ← membersOf nodes
    Node.skip.endOf fault
    .ok (.ofMembers members)
  | .deep _ => .error .tooDeep
  | .broken strict .. => .error strict

/-- The values of trees. -/
def valuesOf : List Node → Except Fault (List Json)
  | [] => .ok []
  | node :: nodes => do
    let item ← valueOf node
    let items ← valuesOf nodes
    .ok (item :: items)

/-- The members of trees, in the order of the text. -/
def membersOf : List (Node.Key × Node) → Except Fault (List (String × Json))
  | [] => .ok []
  | (key, node) :: nodes => do
    let key ← key
    let value ← valueOf node
    let members ← membersOf nodes
    .ok ((key, value) :: members)

end

/-- Any value. -/
def json : Decoder Json := fun _ node ↦ orMalformed (valueOf node)

/-! ## Records -/

/-- A field of a record. -/
structure Field (α : Type) where
  name : String
  decode : Decoder α
  /-- What the field is when it is left out, if it may be. -/
  fallback : Option α

/-- A field that must be there. -/
def required {α : Type} (name : String) (decode : Decoder α) : Field α := ⟨name, decode, none⟩

/-- A field that may be left out. -/
def defaulted {α : Type} (name : String) (decode : Decoder α) (fallback : α) : Field α :=
  ⟨name, decode, some fallback⟩

/-- The fields of a record: `σ` holds those met so far, `τ` all of them. -/
structure Fields (σ τ : Type) where
  /-- The number of fields. -/
  count : Nat
  /-- No field met. -/
  start : σ
  /-- Meets a member of an object, unless no field has its name. -/
  meet : Source → String → Node → σ → Option (Except DecodeError σ)
  /-- The fields after the last member. -/
  finish : σ → Except DecodeError τ
  /-- The fields at the front of an array, whose error for a missing one is given, and the items
  after them. -/
  take : Source → (Nat → DecodeError) → Nat → Option Fault → List Node →
    Except DecodeError (τ × List Node)

namespace Field

variable {α : Type}

/-- Meets the member with the name of the field, once. -/
def meet (field : Field α) (source : Source) (node : Node) :
    Option α → Except DecodeError (Option α)
  | some _ => .error (.duplicateField field.name)
  | none => (field.decode source node).map some

/-- The field after the last member. -/
def finish (field : Field α) : Option α → Except DecodeError α
  | some a => .ok a
  | none =>
    match field.fallback with
    | some a => .ok a
    | none => .error (.missingField field.name)

/-- The field at the front of an array. -/
def take (field : Field α) (source : Source) (missing : Nat → DecodeError) (index : Nat)
    (fault : Option Fault) : List Node → Except DecodeError (α × List Node)
  | node :: nodes => (field.decode source node).map (·, nodes)
  | [] =>
    match fault, field.fallback with
    | some fault, _ => .error (.malformed fault)
    | none, some a => .ok (a, [])
    | none, none => .error (missing index)

/-- A record of one field. -/
def only (field : Field α) : Fields (Option α) α where
  count := 1
  start := none
  meet source name node slot :=
    if name = field.name then some (field.meet source node slot) else none
  finish := field.finish
  take := field.take

/-- A record with one more field in front. -/
def and {σ τ : Type} (field : Field α) (fields : Fields σ τ) : Fields (Option α × σ) (α × τ) where
  count := fields.count + 1
  start := (none, fields.start)
  meet source name node slots :=
    if name = field.name then some ((field.meet source node slots.1).map (·, slots.2))
    else (fields.meet source name node slots.2).map fun rest ↦ rest.map (slots.1, ·)
  finish slots := do
    let a ← field.finish slots.1
    let rest ← fields.finish slots.2
    .ok (a, rest)
  take source missing index fault nodes := do
    let (a, nodes) ← field.take source missing index fault nodes
    let (rest, nodes) ← fields.take source missing (index + 1) fault nodes
    .ok ((a, rest), nodes)

end Field

namespace Fields

variable {σ τ : Type}

/-- Meets the members of an object in order; those without a field are passed over. -/
def walk (fields : Fields σ τ) (source : Source) (slots : σ) :
    List (Node.Key × Node) → Except DecodeError σ
  | [] => .ok slots
  | (key, node) :: members => do
    let name ← orMalformed key
    match fields.meet source name node slots with
    | some met => do
      let slots ← met
      walk fields source slots members
    | none => do
      orMalformed node.skip
      walk fields source slots members

/-- The end of an array after the last field. -/
def close (source : Source) (length : Nat) : List Node → Option Fault → Except DecodeError Unit
  | [], none => .ok ()
  | [], some .endOfArray => .error (.malformed .endOfArray)
  | [], some _ => .error (.malformed .trailingText)
  | node :: _, _ =>
    match source, node with
    | .value, _ => .error (.wrongLength length "fewer elements in array")
    | .text, .broken .trailingComma .. => .error (.malformed .trailingComma)
    | .text, _ => .error (.malformed .trailingText)

end Fields

/-- A record of the given kind. -/
def record {σ τ : Type} (kind : String) (fields : Fields σ τ) : Decoder τ := fun source node ↦
  match node with
  | .object members fault => do
    let slots ← fields.walk source fields.start members
    ending fault
    fields.finish slots
  | .array nodes fault => do
    let expected := "struct " ++ kind ++ " with " ++ toString fields.count ++
      (if fields.count = 1 then " element" else " elements")
    let (record, rest) ← fields.take source (.wrongLength · expected) 0 fault nodes
    Fields.close source nodes.length rest fault
    .ok record
  | .deep _ => .error (.malformed .tooDeep)
  | node => node.refuse ("struct " ++ kind)

/-! ## Variants -/

/-- What a variant carries. -/
inductive Payload (α : Type) where
  | none (value : α)
  | data (decode : Decoder α)

/-- The data of a variant written as the only member of an object. -/
def payload {α : Type} (source : Source) (node : Node) : Payload α → Except DecodeError α
  | .none value =>
    match node with
    | .null => .ok value
    | node => node.refuse "unit"
  | .data decode => decode source node

/-- The end of an object that holds one variant in a text. -/
def variantEnding : List (Node.Key × Node) → Option Fault → Except DecodeError Unit
  | [], none => .ok ()
  | [], some .endOfObject => .error (.malformed .endOfObject)
  | _, _ => .error (.malformed .expectedValue)

/-- A variant written by its name alone. -/
def bareVariant {α : Type} : Payload α → Except DecodeError α
  | .none value => .ok value
  | .data _ => .error (.wrongType .bareVariant "newtype variant")

/-- One of several variants, chosen by name. -/
def variant {α : Type} (choose : String → Except DecodeError (Payload α)) : Decoder α :=
  fun source node ↦
    match source, node with
    | _, .text name => do
      let name ← orMalformed name
      let chosen ← choose name
      bareVariant chosen
    | .text, .object [] fault =>
      .error (.malformed (if fault.isSome then .endOfValue else .expectedValue))
    | .text, .object ((key, node) :: members) fault => do
      let name ← orMalformed key
      let chosen ← choose name
      let a ← payload source node chosen
      variantEnding members fault
      .ok a
    | .text, .deep (.object ..) => .error (.malformed .tooDeep)
    | .text, .broken strict _ bare => .error (.malformed (if bare then .expectedValue else strict))
    | .text, _ => .error (.malformed .expectedValue)
    | .value, .object [(key, node)] _ => do
      let name ← orMalformed key
      let chosen ← choose name
      payload source node chosen
    | .value, .object .. => .error (.wrongValue .object "map with a single key")
    | .value, node => node.refuse "string or map"

end Decode

/-! ## Whole texts -/

/-- Reads data from a value. -/
def decodeValue {α : Type} (decode : Decoder α) (j : Json) : Except DecodeError α :=
  decode .value (.ofJson j)

/-- Reads data from a tree that must be the whole text. -/
def decodeTree {α : Type} (decode : Decoder α) (tree : Node × Bool) : Except DecodeError α := do
  let a ← decode .text tree.1
  if tree.2 then .error (.malformed .trailingText) else .ok a

/-- Reads data from a string. -/
def decodeString {α : Type} (decode : Decoder α) (s : String) : Except DecodeError α :=
  decodeTree decode (Node.ofString s)

/-- Reads data from bytes. -/
def decodeBytes {α : Type} (decode : Decoder α) (bytes : ByteArray) : Except DecodeError α :=
  decodeTree decode (Node.ofBytes bytes)

/-- Reads a value from a string. -/
def ofString? (s : String) : Option Json := (decodeString Decode.json s).toOption

end LoanClosing.Json
