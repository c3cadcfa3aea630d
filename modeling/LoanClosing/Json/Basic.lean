import LoanClosing.Number.Binary64
import LoanClosing.Table

/-!
# JSON values

Values of the JSON data format. A number is an integer of at most sixty-four bits or a binary
floating-point number; the members of an object are kept in the order given, and `ofMembers` puts
them in byte order with the last value of a repeated key.
-/

namespace LoanClosing

/-- A JSON number. -/
inductive Json.Number where
  /-- A whole number. -/
  | integer (value : Int)
  /-- A number with a fraction or an exponent, or one too large for a whole number. -/
  | float (value : Binary64)
  deriving DecidableEq, Repr

/-- A JSON value. -/
inductive Json where
  | null
  | bool (value : Bool)
  | number (value : Json.Number)
  | text (value : String)
  | array (items : List Json)
  | object (members : List (String × Json))
  deriving Repr, Inhabited

namespace Json

mutual

/-- Equality of values is decidable. -/
def decEq : (a b : Json) → Decidable (a = b)
  | .null, b => by cases b <;> first | exact isTrue rfl | exact isFalse (by simp)
  | .bool x, .bool y => decidable_of_iff (x = y) (by simp)
  | .bool _, .null | .bool _, .number _ | .bool _, .text _ | .bool _, .array _
  | .bool _, .object _ => isFalse (by simp)
  | .number x, .number y => decidable_of_iff (x = y) (by simp)
  | .number _, .null | .number _, .bool _ | .number _, .text _ | .number _, .array _
  | .number _, .object _ => isFalse (by simp)
  | .text x, .text y => decidable_of_iff (x = y) (by simp)
  | .text _, .null | .text _, .bool _ | .text _, .number _ | .text _, .array _
  | .text _, .object _ => isFalse (by simp)
  | .array x, .array y => have := decEqItems x y; decidable_of_iff (x = y) (by simp)
  | .array _, .null | .array _, .bool _ | .array _, .number _ | .array _, .text _
  | .array _, .object _ => isFalse (by simp)
  | .object x, .object y => have := decEqMembers x y; decidable_of_iff (x = y) (by simp)
  | .object _, .null | .object _, .bool _ | .object _, .number _ | .object _, .text _
  | .object _, .array _ => isFalse (by simp)

/-- Equality of lists of values is decidable. -/
def decEqItems : (a b : List Json) → Decidable (a = b)
  | [], [] => isTrue rfl
  | [], _ :: _ | _ :: _, [] => isFalse (by simp)
  | x :: xs, y :: ys =>
    have := decEq x y
    have := decEqItems xs ys
    decidable_of_iff (x = y ∧ xs = ys) (by simp)

/-- Equality of lists of members is decidable. -/
def decEqMembers : (a b : List (String × Json)) → Decidable (a = b)
  | [], [] => isTrue rfl
  | [], _ :: _ | _ :: _, [] => isFalse (by simp)
  | (k, x) :: xs, (l, y) :: ys =>
    have := decEq x y
    have := decEqMembers xs ys
    decidable_of_iff (k = l ∧ x = y ∧ xs = ys) (by simp [and_assoc])

end

instance : DecidableEq Json := decEq

/-- The object with the given members in byte order of their keys; of several values under one key
the last is kept. -/
def ofMembers (members : List (String × Json)) : Json := .object (Table.sorted members)

/-- A member of an object. -/
def member? (key : String) : Json → Option Json
  | .object members => Table.find? key members
  | _ => none

/-- A whole number. -/
def int (n : Int) : Json := .number (.integer n)

/-- A count. -/
def nat (n : Nat) : Json := .int n

namespace Number

/-- The exponent of a decimal when one digit stands before the point. -/
def scientificExponent (coefficient : Nat) (power : Int) : Int :=
  (Nat.toDigits 10 coefficient).length - 1 + power

/-- A decimal with a point and without an exponent, with at least one digit on each side. -/
def positional (coefficient : Nat) (power : Int) : List Char :=
  let digits := Nat.toDigits 10 coefficient
  if 0 ≤ power then digits ++ List.replicate power.toNat '0' ++ ['.', '0']
  else
    let places := (-power).toNat
    let digits := List.replicate (places + 1 - digits.length) '0' ++ digits
    digits.take (digits.length - places) ++ ['.'] ++ digits.drop (digits.length - places)

/-- A decimal with an exponent and one digit before the point. -/
def scientific (coefficient : Nat) (power : Int) : List Char :=
  let exponent := scientificExponent coefficient power
  (match Nat.toDigits 10 coefficient with
    | [] => []
    | [d] => [d]
    | d :: ds => d :: '.' :: ds) ++
  ['e', if exponent < 0 then '-' else '+'] ++ Nat.toDigits 10 exponent.natAbs

/-- The characters of a number: the fewest digits that read back. The point is written without an
exponent from `1e-5` up to below `1e16`. -/
def chars : Number → List Char
  | .integer n => (toString n).toList
  | .float x =>
    let (coefficient, power) := x.shortest
    let exponent := scientificExponent coefficient power
    (if x.negative then ['-'] else []) ++
    if coefficient = 0 then ['0', '.', '0']
    else if -5 ≤ exponent ∧ exponent < 16 then positional coefficient power
    else scientific coefficient power

/-- The text of a number. -/
def text (n : Number) : String := String.ofList n.chars

end Number

end Json

end LoanClosing
