import LoanClosing.Proofs.Json.Layout

/-!
# The tree of a written value

A value that is written and read gives the tree of that value, with those containers marked that are
nested too deep. Where none is nested too deep, the text gives a reader the same tree as the value
itself.
-/

namespace LoanClosing.Json

mutual

/-- How many containers stand inside each other. -/
def depth : Json → Nat
  | .null | .bool _ | .number _ | .text _ => 0
  | .array items => depthOfItems items + 1
  | .object members => depthOfMembers members + 1

/-- How many containers stand inside each other in items. -/
def depthOfItems : List Json → Nat
  | [] => 0
  | item :: items => max (depth item) (depthOfItems items)

/-- How many containers stand inside each other in members. -/
def depthOfMembers : List (String × Json) → Nat
  | [] => 0
  | (_, value) :: members => max (depth value) (depthOfMembers members)

end

namespace Node

/-! ### Trees with marks -/

/-- Marks a container at a level of nesting that is too deep. -/
def mark (level : Nat) (node : Node) : Node := if maxDepth ≤ level then .deep node else node

mutual

/-- The tree of a value at a level of nesting, with marks. -/
def nested (level : Nat) : Json → Node
  | .null => .null
  | .bool b => .bool b
  | .number n => .number (.ok n)
  | .text s => .text (.ok s)
  | .array items => mark level (.array (nestedItems (level + 1) items) none)
  | .object members => mark level (.object (nestedMembers (level + 1) members) none)

/-- The trees of items at a level of nesting. -/
def nestedItems (level : Nat) : List Json → List Node
  | [] => []
  | item :: items => nested level item :: nestedItems level items

/-- The trees of members at a level of nesting. -/
def nestedMembers (level : Nat) : List (String × Json) → List (Key × Node)
  | [] => []
  | (key, value) :: members => (.ok key, nested level value) :: nestedMembers level members

end

mutual

/-- Where no container is nested too deep, there are no marks. -/
theorem nested_eq_ofJson (level : Nat) :
    (j : Json) → level + j.depth ≤ maxDepth → nested level j = ofJson j
  | .null, _ | .bool _, _ | .number _, _ | .text _, _ => rfl
  | .array items, h => by
    rw [depth] at h
    rw [nested, ofJson, nestedItems_eq_ofItems (level + 1) items (by omega), mark,
      if_neg (by omega)]
  | .object members, h => by
    rw [depth] at h
    rw [nested, ofJson, nestedMembers_eq_ofMembers (level + 1) members (by omega), mark,
      if_neg (by omega)]

theorem nestedItems_eq_ofItems (level : Nat) :
    (items : List Json) → level + depthOfItems items ≤ maxDepth →
      nestedItems level items = ofItems items
  | [], _ => rfl
  | item :: items, h => by
    rw [depthOfItems] at h
    rw [nestedItems, ofItems, nested_eq_ofJson level item (by omega),
      nestedItems_eq_ofItems level items (by omega)]

theorem nestedMembers_eq_ofMembers (level : Nat) :
    (members : List (String × Json)) → level + depthOfMembers members ≤ maxDepth →
      nestedMembers level members = ofMembers members
  | [], _ => rfl
  | (key, value) :: members, h => by
    rw [depthOfMembers] at h
    rw [nestedMembers, ofMembers, nested_eq_ofJson level value (by omega),
      nestedMembers_eq_ofMembers level members (by omega)]

end

/-! ### Taking tokens -/

/-- Goes on with tokens from where the building of a tree stands. -/
def resume : Progress → List Token → Node × List Token
  | .more expect stack, tokens => read expect stack tokens
  | .finished node, tokens => (node, tokens)
  | .stopped node, _ => (node, [])

theorem read_cons (expect : Expect) (stack : List Frame) (token : Token) (tokens : List Token) :
    read expect stack (token :: tokens) = resume (step expect stack token) tokens := by
  rw [read]
  cases step expect stack token <;> rfl

/-- Whether a value may come next. -/
def Expect.TakesValue (expect : Expect) : Prop :=
  expect = .value ∨ expect = .firstItem ∨ expect = .item

/-- Where a value may come next, a token other than a closing bracket is taken as one. -/
theorem step_value {expect : Expect} (he : expect.TakesValue) {token : Token}
    (ht : token ≠ .closeArray) (stack : List Frame) :
    step expect stack token = stepValue stack token := by
  rcases he with rfl | rfl | rfl
  · rfl
  · unfold step
    split <;> first | rfl | contradiction
  · unfold step
    split <;> first | rfl | contradiction

variable {expect : Expect} {stack : List Frame}

/-- A token where a value may come next. -/
theorem read_value (he : expect.TakesValue) (token : Token) (ht : token ≠ .closeArray)
    (more : List Token) :
    read expect stack (token :: more) = resume (stepValue stack token) more := by
  rw [read_cons, step_value he ht]

mutual

/-- The tokens of a value are taken as its tree. -/
theorem read_tokens (stack : List Frame) (expect : Expect) (he : expect.TakesValue)
    (more : List Token) : (j : Json) →
      read expect stack (tokens j ++ more) = resume (complete (nested stack.length j) stack) more
  | .null => read_value he .null nofun more
  | .bool b => read_value he (.bool b) nofun more
  | .number n => read_value he (.number (.ok n)) nofun more
  | .text s => read_value he (.text (.ok s)) nofun more
  | .array [] => (read_value he .openArray nofun _).trans (read_cons ..)
  | .array (item :: items) => by
    have hitem := read_tokens (.array [] :: stack) .firstItem (.inr (.inl rfl))
      (moreItems items ++ .closeArray :: more) item
    have hitems := read_moreItems stack [nested (stack.length + 1) item] more items
    simp only [tokens, List.cons_append, List.append_assoc, List.nil_append]
    rw [read_value he .openArray nofun]
    exact hitem.trans hitems
  | .object [] => (read_value he .openObject nofun _).trans (read_cons ..)
  | .object ((key, value) :: members) => by
    have hvalue := read_tokens (.member [] (.ok key) :: stack) .value (.inl rfl)
      (moreMembers members ++ .closeObject :: more) value
    have hmembers :=
      read_moreMembers stack [(.ok key, nested (stack.length + 1) value)] more members
    simp only [tokens, List.cons_append, List.append_assoc, List.nil_append]
    rw [read_value he .openObject nofun]
    exact hvalue.trans hmembers

/-- The tokens of the items after some that have been read. -/
theorem read_moreItems (stack : List Frame) (done : List Node) (more : List Token) :
    (items : List Json) →
      read .next (.array done :: stack) (moreItems items ++ .closeArray :: more) =
        resume (complete (mark stack.length
          (.array (done.reverse ++ nestedItems (stack.length + 1) items) none)) stack) more
  | [] => by
    rw [moreItems, List.nil_append, read_cons, nestedItems, List.append_nil]
    rfl
  | item :: items => by
    have hitem := read_tokens (.array done :: stack) .item (.inr (.inr rfl))
      (moreItems items ++ .closeArray :: more) item
    have hitems := read_moreItems stack (nested (stack.length + 1) item :: done) more items
    rw [List.reverse_cons, List.append_assoc, List.singleton_append] at hitems
    simp only [moreItems, List.cons_append, List.append_assoc]
    rw [read_cons]
    exact hitem.trans hitems

/-- The tokens of the members after some that have been read. -/
theorem read_moreMembers (stack : List Frame) (done : List (Key × Node)) (more : List Token) :
    (members : List (String × Json)) →
      read .next (.object done :: stack) (moreMembers members ++ .closeObject :: more) =
        resume (complete (mark stack.length
          (.object (done.reverse ++ nestedMembers (stack.length + 1) members) none)) stack) more
  | [] => by
    rw [moreMembers, List.nil_append, read_cons, nestedMembers, List.append_nil]
    rfl
  | (key, value) :: members => by
    have hvalue := read_tokens (.member done (.ok key) :: stack) .value (.inl rfl)
      (moreMembers members ++ .closeObject :: more) value
    have hmembers :=
      read_moreMembers stack ((.ok key, nested (stack.length + 1) value) :: done) more members
    rw [List.reverse_cons, List.append_assoc, List.singleton_append] at hmembers
    simp only [moreMembers, List.cons_append, List.append_assoc]
    rw [read_cons]
    exact hvalue.trans hmembers

end

/-- A text that is scanned as the tokens of a value has the tree of that value. -/
theorem ofString_of_scan {j : Json} {s : String}
    (h : Token.scan (s.toList.map some) = tokens j) : ofString s = (nested 0 j, false) := by
  have hread := read_tokens [] .value (.inl rfl) [] j
  rw [List.append_nil] at hread
  unfold ofString ofRest
  rw [h, hread]
  rfl

/-- The bytes of a string are read as the string. -/
theorem ofBytes_toUTF8 (s : String) : ofBytes s.toUTF8 = ofString s := by
  unfold ofBytes ofString Text.Utf8.decode
  rw [Text.Utf8.fromUTF8?_toUTF8]

end Node

variable {α : Type} {decode : Decoder α} {j : Json}

theorem decodeTree_whole (node : Node) : decodeTree decode (node, false) = decode .text node := by
  unfold decodeTree
  cases decode .text node <;> rfl

/-- Reading a text that is scanned as the tokens of a value is reading its tree with marks. -/
theorem decodeString_of_scan {s : String} (h : Token.scan (s.toList.map some) = tokens j) :
    decodeString decode s = decode .text (Node.nested 0 j) := by
  rw [decodeString, Node.ofString_of_scan h, decodeTree_whole]

/-- Reading what is written in either layout is reading the value, if that is nested no deeper than
a text may be. -/
theorem decodeString_compact (h : ∀ n ∈ j.numbers, n.Faithful) (hd : j.depth ≤ Node.maxDepth) :
    decodeString decode j.compact = decode .text (.ofJson j) := by
  rw [decodeString_of_scan (scan_compact h), Node.nested_eq_ofJson 0 j (by rwa [Nat.zero_add])]

theorem decodeString_pretty (h : ∀ n ∈ j.numbers, n.Faithful) (hd : j.depth ≤ Node.maxDepth) :
    decodeString decode j.pretty = decode .text (.ofJson j) := by
  rw [decodeString_of_scan (scan_pretty h), Node.nested_eq_ofJson 0 j (by rwa [Nat.zero_add])]

theorem decodeBytes_toUTF8 (s : String) : decodeBytes decode s.toUTF8 = decodeString decode s := by
  rw [decodeBytes, Node.ofBytes_toUTF8, decodeString]

end LoanClosing.Json
