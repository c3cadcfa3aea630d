import LoanClosing.Json.Token
import LoanClosing.Text.Utf8

/-!
# The tree of a JSON text

What a text holds up to the place where it breaks. The tree keeps the members of an object as
written, with repeated keys, and has every fault at the place where a reader meets it, so that
whoever walks the tree in order meets the first fault of the text first.

The tree is built by an automaton: `step` takes one token, given what is expected and the containers
that are open, and `read` feeds it the tokens.
-/

namespace LoanClosing.Json

/-- A tree. -/
inductive Node where
  | null
  | bool (value : Bool)
  | number (value : Except Fault Number)
  | text (value : Except Fault String)
  /-- An array, and the fault where it should have gone on or ended. -/
  | array (items : List Node) (ending : Option Fault)
  /-- An object, and the fault where it should have gone on or ended. -/
  | object (members : List (Except Fault String × Node)) (ending : Option Fault)
  /-- A container nested deeper than a reader of values goes. -/
  | deep (inner : Node)
  /-- A break, with the faults for a reader of values and for one that skips, and whether it lies in
  a word or number. -/
  | broken (strict lenient : Fault) (bare : Bool)

namespace Node

/-- How deep containers may be nested. -/
def maxDepth : Nat := 127

mutual

/-- The tree of a value. -/
def ofJson : Json → Node
  | .null => .null
  | .bool b => .bool b
  | .number n => .number (.ok n)
  | .text s => .text (.ok s)
  | .array items => .array (ofItems items) none
  | .object members => .object (ofMembers members) none

/-- The trees of items. -/
def ofItems : List Json → List Node
  | [] => []
  | item :: items => ofJson item :: ofItems items

/-- The trees of members. -/
def ofMembers : List (String × Json) → List (Except Fault String × Node)
  | [] => []
  | (key, value) :: members => (.ok key, ofJson value) :: ofMembers members

end

mutual

/-- How deep a tree is. -/
def height : Node → Nat
  | .null | .bool _ | .number _ | .text _ | .broken .. => 0
  | .array items _ => heightOfItems items + 1
  | .object members _ => heightOfMembers members + 1
  | .deep inner => height inner + 1

/-- How deep the deepest item is. -/
def heightOfItems : List Node → Nat
  | [] => 0
  | item :: items => max (height item) (heightOfItems items)

/-- How deep the deepest member is. -/
def heightOfMembers : List (Except Fault String × Node) → Nat
  | [] => 0
  | (_, value) :: members => max (height value) (heightOfMembers members)

end

/-! ## Building -/

/-- A key as written. -/
abbrev Key := Except Fault String

/-- A container that is open. Its parts are kept last one first. -/
inductive Frame where
  | array (items : List Node)
  /-- An object between two members. -/
  | object (members : List (Key × Node))
  /-- An object that waits for the value of a key. -/
  | member (members : List (Key × Node)) (key : Key)

/-- What is expected next. -/
inductive Expect where
  /-- A value. -/
  | value
  /-- A value, or the end of an array that has just begun. -/
  | firstItem
  /-- A value after a comma of an array. -/
  | item
  /-- What follows a value inside a container. -/
  | next
  /-- A key, or the end of an object that has just begun. -/
  | firstKey
  /-- A key after a comma of an object. -/
  | key
  /-- The colon after a key. -/
  | colon (key : Key)

/-- Where the building of a tree stands. -/
inductive Progress where
  | more (expect : Expect) (stack : List Frame)
  /-- The tree is complete. -/
  | finished (node : Node)
  /-- The text is broken and nothing more is looked at. -/
  | stopped (node : Node)

/-- Marks a container inside the given ones when it is nested too deep. -/
def guard (stack : List Frame) (node : Node) : Node :=
  if maxDepth ≤ stack.length then .deep node else node

/-- The whole tree when a text breaks at a node inside open containers. -/
def abandon : List Frame → Node → Node
  | [], node => node
  | .array items :: stack, node =>
    abandon stack (guard stack (.array (node :: items).reverse none))
  | .object members :: stack, _ => abandon stack (guard stack (.object members.reverse none))
  | .member members key :: stack, node =>
    abandon stack (guard stack (.object ((key, node) :: members).reverse none))

/-- Puts a complete node into the innermost open container. -/
def complete (node : Node) : List Frame → Progress
  | [] => .finished node
  | .array items :: stack => .more .next (.array (node :: items) :: stack)
  | .object members :: stack => .more .next (.object members :: stack)
  | .member members key :: stack => .more .next (.object ((key, node) :: members) :: stack)

/-- The node of a token that is a value by itself. Of a container only its kind is told. -/
def ofToken : Token → Node
  | .null => .null
  | .bool b => .bool b
  | .number n => .number n
  | .text s => .text s
  | .openArray => .array [] none
  | .openObject => .object [] none
  | .broken quoted strict lenient => .broken strict lenient !quoted
  | _ => .broken .expectedValue .expectedValue true

/-- A token where a value is expected. -/
def stepValue (stack : List Frame) : Token → Progress
  | .openArray => .more .firstItem (.array [] :: stack)
  | .openObject => .more .firstKey (.object [] :: stack)
  | .null => complete .null stack
  | .bool b => complete (.bool b) stack
  | .number n => complete (.number n) stack
  | .text s => complete (.text s) stack
  | token => .stopped (abandon stack (ofToken token))

/-- A token where a key is expected. -/
def stepKey (members : List (Key × Node)) (stack : List Frame) : Token → Progress
  | .text s => .more (.colon s) (.object members :: stack)
  | .broken true strict lenient =>
    .stopped (abandon (.member members (.error strict) :: stack)
      (.broken strict lenient false))
  | token => .stopped (abandon (.member members (.error .keyIsNoText) :: stack) (ofToken token))

/-- A token after a value inside a container. -/
def stepNext : List Frame → Token → Progress
  | .array items :: stack, .comma => .more .item (.array items :: stack)
  | .array items :: stack, .closeArray => complete (guard stack (.array items.reverse none)) stack
  | .array items :: stack, _ =>
    .stopped (abandon stack (guard stack (.array items.reverse (some .expectedCommaOrBracket))))
  | .object members :: stack, .comma => .more .key (.object members :: stack)
  | .object members :: stack, .closeObject =>
    complete (guard stack (.object members.reverse none)) stack
  | .object members :: stack, _ =>
    .stopped (abandon stack (guard stack (.object members.reverse (some .expectedCommaOrBrace))))
  | stack, _ => .stopped (abandon stack (.broken .expectedValue .expectedValue true))

/-- Takes one token. -/
def step : Expect → List Frame → Token → Progress
  | .value, stack, token => stepValue stack token
  | .firstItem, .array items :: stack, .closeArray =>
    complete (guard stack (.array items.reverse none)) stack
  | .firstItem, stack, token => stepValue stack token
  | .item, stack, .closeArray =>
    .stopped (abandon stack (.broken .trailingComma .expectedValue true))
  | .item, stack, token => stepValue stack token
  | .next, stack, token => stepNext stack token
  | .firstKey, .object members :: stack, .closeObject =>
    complete (guard stack (.object members.reverse none)) stack
  | .key, .object members :: stack, .closeObject =>
    .stopped (abandon (.member members (.error .trailingComma) :: stack)
      (.broken .trailingComma .keyIsNoText true))
  | .firstKey, .object members :: stack, token | .key, .object members :: stack, token =>
    stepKey members stack token
  | .colon key, .object members :: stack, .colon => .more .value (.member members key :: stack)
  | .colon key, .object members :: stack, _ =>
    .stopped (abandon (.member members key :: stack) (.broken .expectedColon .expectedColon false))
  | _, stack, _ => .stopped (abandon stack (.broken .expectedValue .expectedValue true))

/-- The whole tree when a text ends early. -/
def ended : Expect → List Frame → Node
  | .firstItem, .array items :: stack | .next, .array items :: stack =>
    abandon stack (guard stack (.array items.reverse (some .endOfArray)))
  | .firstKey, .object members :: stack | .next, .object members :: stack =>
    abandon stack (guard stack (.object members.reverse (some .endOfObject)))
  | .key, .object members :: stack =>
    abandon (.member members (.error .endOfValue) :: stack) (.broken .endOfValue .endOfObject false)
  | .colon key, .object members :: stack =>
    abandon (.member members key :: stack) (.broken .endOfObject .endOfObject false)
  | _, stack => abandon stack (.broken .endOfValue .endOfValue false)

/-- Takes tokens until the tree is complete; what is left follows it. -/
def read : Expect → List Frame → List Token → Node × List Token
  | expect, stack, [] => (ended expect stack, [])
  | expect, stack, token :: tokens =>
    match step expect stack token with
    | .more expect stack => read expect stack tokens
    | .finished node => (node, tokens)
    | .stopped node => (node, [])

/-- The tree of a text, and whether anything follows it. -/
def ofRest (rest : Token.Rest) : Node × Bool :=
  let (node, left) := read .value [] (Token.scan rest)
  (node, !left.isEmpty)

/-- The tree of a string, and whether anything follows it. -/
def ofString (s : String) : Node × Bool := ofRest (s.toList.map some)

/-- The tree of bytes, and whether anything follows it. -/
def ofBytes (bytes : ByteArray) : Node × Bool := ofRest (Text.Utf8.decode bytes)

end Node

end LoanClosing.Json
