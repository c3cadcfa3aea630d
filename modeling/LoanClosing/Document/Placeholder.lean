import LoanClosing.Document.Basic
import LoanClosing.Model.Scope

/-!
# Placeholders

A placeholder is an opening brace, a key, and the next brace, which closes it. The key says what
becomes of it in a scope: a tab or the text of a value takes its place, or nothing does where a path
leads nowhere, or it is left as it is. A tally counts the placeholders of each kind.
-/

namespace LoanClosing.Placeholder

/-- The key that stands for a tab. -/
def tabKey : List Char := ['T', 'A', 'B']

/-- Whether a key is a path. -/
def isPath (key : List Char) : Bool := Text.isDottedName key

/-- What becomes of a placeholder. -/
inductive Filling where
  /-- It is left as it is. -/
  | keep
  /-- A text takes its place. -/
  | put (text : List Char)
  /-- Its path leads nowhere, and nothing takes its place. -/
  | missing
  /-- Its path starts with no name in scope, and it is left as it is. -/
  | unqualified
  deriving DecidableEq, Repr

/-- What becomes of a placeholder in a scope. -/
def filling (scope : Scope) (key : List Char) : Filling :=
  if key = tabKey then .put ['\t']
  else if isPath key then
    match scope.resolve (String.ofList key) with
    | .found value => .put value.render.toList
    | .missing => .missing
    | .unqualified => .unqualified
  else .keep

/-- How many placeholders were filled and how. -/
structure Tally where
  /-- Placeholders that were replaced, the missing ones included. -/
  replaced : Nat
  /-- Placeholders whose path led nowhere. -/
  missing : Nat
  /-- Placeholders whose path starts with no name in scope. -/
  unqualified : Nat
  /-- Whether some paragraph ends inside an open brace. -/
  unterminated : Bool
  deriving DecidableEq, Repr

namespace Tally

/-- Nothing filled. -/
def zero : Tally := ⟨0, 0, 0, false⟩

/-- Two tallies together. -/
def add (a b : Tally) : Tally :=
  ⟨a.replaced + b.replaced, a.missing + b.missing, a.unqualified + b.unqualified,
    a.unterminated || b.unterminated⟩

end Tally

end LoanClosing.Placeholder
