import LoanClosing.Model.Value

/-!
# Scopes

The names that a path may start with: the name of the whole loan and the variables of the loops
around a place, innermost first. A path is a name and the members below it, with dots between them.
-/

namespace LoanClosing

/-- A scope. -/
structure Scope where
  rootName : String
  root : Value
  /-- Loop variables and their items, innermost first. -/
  frames : List (String × Value)
  deriving Repr

/-- What a path leads to. -/
inductive Resolution where
  | found (value : Value)
  /-- The first name is known, but a member below it does not exist. -/
  | missing
  /-- The first name is not known. -/
  | unqualified
  deriving Repr

namespace Scope

/-- The scope outside all loops. -/
def outermost (rootName : String) (root : Value) : Scope := ⟨rootName, root, []⟩

/-- The scope inside a loop, with its variable bound to an item. -/
def withItem (scope : Scope) (name : String) (item : Value) : Scope :=
  { scope with frames := (name, item) :: scope.frames }

/-- All names, innermost first. -/
def names (scope : Scope) : List String := scope.frames.map Prod.fst ++ [scope.rootName]

/-- The value of a name. -/
def binding? (scope : Scope) (name : String) : Option Value :=
  Table.find? name (scope.frames ++ [(scope.rootName, scope.root)])

/-- The segments of a path, without blanks around them. -/
def segments (path : String) : List String :=
  (Text.splitAt '.' path.toList).map fun segment ↦ String.ofList (Text.trimChars segment)

/-- What a path leads to, given its segments. -/
def resolveSegments (scope : Scope) : List String → Resolution
  | [] => .unqualified
  | head :: rest =>
    match scope.binding? head with
    | none => .unqualified
    | some start =>
      match start.descend rest with
      | some value => .found value
      | none => .missing

/-- What a path leads to. -/
def resolve (scope : Scope) (path : String) : Resolution := scope.resolveSegments (segments path)

/-- The items of the list that a path leads to; there are none when it leads to anything else. -/
def resolveItems (scope : Scope) (path : String) : List Value :=
  match scope.resolve path with
  | .found (.list items) => items
  | _ => []

end Scope

end LoanClosing
