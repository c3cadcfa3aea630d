import LoanClosing.Number.Binary64
import LoanClosing.Text.Ascii

/-!
# Written floating-point numbers

The numbers of sixty-four bits with the two infinities and the value that is no number. They are
read from digits with at most one point and an exponent, or from a word, and shown with the fewest
digits and without an exponent.
-/

namespace LoanClosing

/-- A floating-point number. -/
inductive Floating where
  | finite (value : Binary64)
  | infinite (negative : Bool)
  | undefined
  deriving DecidableEq, Repr

namespace Floating

/-- Equality by value: the two zeros are one, and the value that is no number is itself. -/
def sameValue : Floating → Floating → Bool
  | .finite x, .finite y => x == y || (x.significand == 0 && y.significand == 0)
  | x, y => x == y

/-! ## Reading -/

/-- Reads an exponent, if there is one. -/
def exponent? : List Char → Option Int
  | [] => some 0
  | c :: cs => if c = 'e' ∨ c = 'E' then Text.readInt? (String.ofList cs) else none

/-- Reads digits with at most one point and an exponent. What is too large is infinite. -/
def ofDigits? (negative : Bool) (cs : List Char) : Option Floating := do
  let whole := cs.takeWhile Char.isDigit
  let (places, rest) := match cs.dropWhile Char.isDigit with
    | '.' :: rest => (rest.takeWhile Char.isDigit, rest.dropWhile Char.isDigit)
    | rest => ([], rest)
  if whole.isEmpty && places.isEmpty then none
  else
    let power := (← exponent? rest) - places.length
    match Binary64.nearest? negative (Text.digitsValue (whole ++ places)) power with
    | some x => some (.finite x)
    | none => some (.infinite negative)

/-- Reads a number after its sign. The words count in any ASCII case. -/
def ofMagnitude? (negative : Bool) (cs : List Char) : Option Floating :=
  let word := String.ofList cs
  if Text.sameFolded "inf" word || Text.sameFolded "infinity" word then some (.infinite negative)
  else if Text.sameFolded "nan" word then some .undefined
  else ofDigits? negative cs

/-- Reads a number with an optional sign. -/
def read? (s : String) : Option Floating :=
  match s.toList with
  | '-' :: cs => ofMagnitude? true cs
  | '+' :: cs => ofMagnitude? false cs
  | cs => ofMagnitude? false cs

/-! ## Writing -/

/-- A decimal without an exponent, and without a point if it is whole. -/
def positional (coefficient : Nat) (power : Int) : List Char :=
  if 0 ≤ power then Nat.toDigits 10 coefficient ++ List.replicate power.toNat '0'
  else
    let places := (-power).toNat
    let digits := Text.padded (places + 1) coefficient
    digits.take (digits.length - places) ++ ['.'] ++ digits.drop (digits.length - places)

/-- The written form. -/
def text : Floating → String
  | .finite x =>
    let (coefficient, power) := x.shortest
    let digits := if coefficient = 0 then ['0'] else positional coefficient power
    String.ofList ((if x.negative then ['-'] else []) ++ digits)
  | .infinite negative => if negative then "-inf" else "inf"
  | .undefined => "NaN"

end Floating

end LoanClosing
