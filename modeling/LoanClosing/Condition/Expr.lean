import LoanClosing.Model.Scope

/-!
# Conditions

The tree of a condition and its meaning in a scope. `and` and `or` look at their second part only
when the first does not decide. Comparing for equality always has an answer; comparing for order has
one only for two values that have an order.
-/

namespace LoanClosing.Condition

/-- A value written out in a condition. -/
inductive Literal where
  | null
  | bool (flag : Bool)
  | number (amount : Decimal)
  | text (text : String)
  deriving DecidableEq, Repr

/-- A comparison. -/
inductive Comparison where
  | equal
  | unequal
  | less
  | atMost
  | greater
  | atLeast
  deriving DecidableEq, Repr

/-- A condition. -/
inductive Expr where
  | literal (value : Literal)
  /-- A path, by its segments. -/
  | path (segments : List String)
  | not (operand : Expr)
  | and (left right : Expr)
  | or (left right : Expr)
  | compare (left : Expr) (comparison : Comparison) (right : Expr)
  deriving DecidableEq, Repr

/-- Why a condition has no truth value. -/
inductive Failure where
  /-- The text is no condition. -/
  | illFormed (condition : String)
  /-- A path does not start with a name in scope. -/
  | unbound (path : String)
  /-- A value of the given kind stands where a truth value is needed. -/
  | notBoolean (kind : String)
  /-- Values of the given kinds have no order. -/
  | incomparable (left right : String)
  deriving DecidableEq, Repr

/-- The text of a failure. -/
def Failure.message : Failure → String
  | .illFormed condition => "cannot parse condition '" ++ condition ++ "'"
  | .unbound path => "'" ++ path ++ "' is not bound in this scope"
  | .notBoolean kind => "condition produced " ++ kind ++ " instead of a boolean"
  | .incomparable left right => "cannot order " ++ left ++ " against " ++ right

/-- The value that a literal writes. -/
def Literal.value : Literal → Value
  | .null => .null
  | .bool flag => .bool flag
  | .number amount => .number amount
  | .text s => .text s

/-! ## Comparing -/

/-- Whether a text writes an amount of the same value. It may have blanks around it, and an exponent
as a number in data may. -/
def writesAmount (text : String) (amount : Decimal) : Bool :=
  (Decimal.read? (Text.trim text)).any amount.sameValue

/-- Whether a text writes a date. -/
def writesDate (text : String) (date : Date) : Bool := Date.read? text == some date

/-- Whether a text names a choice. -/
def namesChoice (text : String) (choice : EnumValue) : Bool :=
  choice.name == some text || choice.description == some text

/-- Whether an amount is the number of a choice. -/
def numbersChoice (amount : Decimal) (choice : EnumValue) : Bool :=
  choice.value.any fun n ↦ (Decimal.ofInt64 n).sameValue amount

/-- Equality across kinds: a text equals the amount, date or choice that it writes. -/
def equals : Value → Value → Bool
  | .null, .null => true
  | .null, _ | _, .null => false
  | .number a, .number b => a.sameValue b
  | .number a, .text b | .text b, .number a => writesAmount b a
  | .date a, .date b => a == b
  | .date a, .text b | .text b, .date a => writesDate b a
  | .enum a, .text b | .text b, .enum a => namesChoice b a
  | .enum a, .number b | .number b, .enum a => numbersChoice b a
  | .enum a, .enum b => a.name == b.name
  | a, b => a.sameAs b

/-- The order of two texts by their bytes. -/
def orderText (a b : String) : Ordering := if a < b then .lt else if a = b then .eq else .gt

/-- The order of two values, if they have one. -/
def order : Value → Value → Option Ordering
  | .number a, .number b => some (a.order b)
  | .number a, .text b => (Decimal.read? (Text.trim b)).map a.order
  | .text a, .number b => (Decimal.read? (Text.trim a)).map (·.order b)
  | .date a, .date b => some (a.order b)
  | .date a, .text b => (Date.read? b).map a.order
  | .text a, .date b => (Date.read? a).map (·.order b)
  | .text a, .text b => some (orderText a b)
  | .enum a, .number b => a.value.map fun n ↦ (Decimal.ofInt64 n).order b
  | .number a, .enum b => b.value.map fun n ↦ a.order (Decimal.ofInt64 n)
  | _, _ => none

/-- Whether an order satisfies a comparison for order. -/
def Comparison.accepts : Comparison → Ordering → Bool
  | .equal, o => o == .eq
  | .unequal, o => o != .eq
  | .less, o => o == .lt
  | .atMost, o => o != .gt
  | .greater, o => o == .gt
  | .atLeast, o => o != .lt

/-- The truth of a comparison. -/
def holdsBetween (comparison : Comparison) (left right : Value) : Except Failure Bool :=
  match comparison with
  | .equal => .ok (equals left right)
  | .unequal => .ok (!equals left right)
  | comparison =>
    match order left right with
    | some o => .ok (comparison.accepts o)
    | none => .error (.incomparable left.kind right.kind)

/-! ## Evaluating -/

/-- The truth value that a value is. -/
def truth : Value → Except Failure Bool
  | .bool flag => .ok flag
  | other => .error (.notBoolean other.kind)

/-- The value of a condition in a scope. -/
def Expr.eval (scope : Scope) : Expr → Except Failure Value
  | .literal value => .ok value.value
  | .path segments =>
    match scope.resolveSegments segments with
    | .found value => .ok value
    | .missing => .ok .null
    | .unqualified => .error (.unbound (".".intercalate segments))
  | .not operand => do
    let value ← operand.eval scope
    let flag ← truth value
    .ok (.bool !flag)
  | .and left right => do
    let value ← left.eval scope
    let flag ← truth value
    if flag then do
      let value ← right.eval scope
      let flag ← truth value
      .ok (.bool flag)
    else .ok (.bool false)
  | .or left right => do
    let value ← left.eval scope
    let flag ← truth value
    if flag then .ok (.bool true)
    else do
      let value ← right.eval scope
      let flag ← truth value
      .ok (.bool flag)
  | .compare left comparison right => do
    let a ← left.eval scope
    let b ← right.eval scope
    let flag ← holdsBetween comparison a b
    .ok (.bool flag)

end LoanClosing.Condition
