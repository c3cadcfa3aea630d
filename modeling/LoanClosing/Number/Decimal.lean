import LoanClosing.Text.Ascii

/-!
# Decimals

Decimal numbers with at most ninety-six bits before the scale and at most twenty-eight places.
Reading keeps the places as written and rounds what does not fit; comparing is by value, so `1.0`
and `1.00` are the same number with two written forms.
-/

namespace LoanClosing

/-- The number `unscaled / 10 ^ scale`. -/
structure Decimal where
  /-- The digits without the point, signed. -/
  unscaled : Int
  /-- The number of places after the point. -/
  scale : Nat
  /-- The digits fit in ninety-six bits. -/
  unscaled_lt : unscaled.natAbs < Nat.pow 2 96
  /-- There are at most twenty-eight places. -/
  scale_le : scale ≤ 28
  deriving DecidableEq, Repr

namespace Decimal

/-- The largest number of places. -/
def maxScale : Nat := 28

/-- The decimal with the given sign, digits and places, if it fits. -/
def ofParts? (negative : Bool) (coefficient scale : Nat) : Option Decimal :=
  if h : coefficient < Nat.pow 2 96 ∧ scale ≤ 28 then
    some ⟨if negative then -(coefficient : Int) else coefficient, scale,
      by split <;> simpa using h.1, h.2⟩
  else none

/-- A whole number of sixty-four bits. -/
def ofInt64 (n : Int64) : Decimal :=
  ⟨n.toInt, 0, by have := n.le_toInt; have := n.toInt_lt; simp only [Nat.pow_eq]; omega, by decide⟩

/-- A count. One of more than ninety-six bits, which no list in memory reaches, gives the largest
decimal. -/
def ofCount (n : Nat) : Decimal :=
  ⟨(min n (Nat.pow 2 96 - 1) : Nat), 0, by simp only [Int.natAbs_natCast, Nat.pow_eq]; omega,
    by decide⟩

/-- The order of two decimals by value. -/
def order (a b : Decimal) : Ordering :=
  compare (a.unscaled * Int.pow 10 b.scale) (b.unscaled * Int.pow 10 a.scale)

/-- Equality by value. -/
def sameValue (a b : Decimal) : Bool :=
  a.unscaled * Int.pow 10 b.scale == b.unscaled * Int.pow 10 a.scale

/-! ## Writing -/

/-- The written form: all places are kept, and zero has no sign. -/
def text (d : Decimal) : String :=
  let digits := Text.padded (d.scale + 1) d.unscaled.natAbs
  let whole := digits.take (digits.length - d.scale)
  let places := digits.drop (digits.length - d.scale)
  String.ofList ((if d.unscaled < 0 then ['-'] else []) ++ whole ++
    (if d.scale = 0 then [] else '.' :: places))

/-! ## Reading -/

/-- Rounds by the first digit that does not fit, away from zero from five on. When the digits
overflow by it, one place is given up. -/
def roundOff (negative : Bool) (coefficient scale digit : Nat) : Option Decimal :=
  if digit < 5 then ofParts? negative coefficient scale
  else if coefficient + 1 < Nat.pow 2 96 then ofParts? negative (coefficient + 1) scale
  else if scale = 0 then none
  else ofParts? negative ((coefficient + 5) / 10) (scale - 1)

/-- The decimal whose last places do not fit. Only digits and underscores may stand there, and the
first digit rounds. -/
def withoutPlaces (negative : Bool) (coefficient scale : Nat) (places : List Char) :
    Option Decimal :=
  if places.all fun c ↦ c.isDigit || c == '_' then
    match places.find? Char.isDigit with
    | none => ofParts? negative coefficient scale
    | some c => roundOff negative coefficient scale (Text.digitValue c)
  else none

/-- Reads on after `coefficient` with `scale` places; `point` says whether the point has come and
`seen` whether a digit has. -/
def readDigits (negative point seen : Bool) (coefficient scale : Nat) :
    List Char → Option Decimal
  | [] => if seen then ofParts? negative coefficient scale else none
  | c :: rest =>
    if point && maxScale ≤ scale then withoutPlaces negative coefficient scale (c :: rest)
    else if c.isDigit then
      let next := 10 * coefficient + Text.digitValue c
      if next < Nat.pow 2 96 then
        readDigits negative point true next (if point then scale + 1 else scale) rest
      else if point then withoutPlaces negative coefficient scale (c :: rest)
      else none
    else if c == '.' && !point then readDigits negative true seen coefficient scale rest
    else if c == '_' && seen then readDigits negative point true coefficient scale rest
    else none

/-- Reads a decimal: an optional sign, digits with at most one point, and underscores after the
first digit. Places that do not fit are rounded by the first of them; a whole part that does not
fit is refused. -/
def ofChars? : List Char → Option Decimal
  | '-' :: cs => readDigits true false false 0 0 cs
  | '+' :: cs => readDigits false false false 0 0 cs
  | cs => readDigits false false false 0 0 cs

/-- Reads a decimal that has no exponent. -/
def ofString? (s : String) : Option Decimal := ofChars? s.toList

/-- The quotient of two naturals, rounded to nearest, a half upwards. -/
def roundHalfUp (n divisor : Nat) : Nat := (2 * n + divisor) / (2 * divisor)

/-- Moves the point of a decimal to the left: places are added, and those beyond the limit are
rounded, a half away from zero. -/
def shiftDown (d : Decimal) (places : Nat) : Option Decimal :=
  let scale := d.scale + places
  if scale ≤ maxScale then ofParts? (d.unscaled < 0) d.unscaled.natAbs scale
  else
    ofParts? (d.unscaled < 0) (roundHalfUp d.unscaled.natAbs (Nat.pow 10 (scale - maxScale)))
      maxScale

/-- Moves the point of a decimal to the right: places are used up first, then zeros are added. -/
def shiftUp (d : Decimal) (places : Nat) : Option Decimal :=
  if places ≤ d.scale then ofParts? (d.unscaled < 0) d.unscaled.natAbs (d.scale - places)
  else ofParts? (d.unscaled < 0) (d.unscaled.natAbs * Nat.pow 10 (places - d.scale)) 0

/-- Reads a decimal with an exponent of at most twenty-eight either way. -/
def ofScientific? (s : String) : Option Decimal :=
  let cs := s.toList
  let isMark := fun c ↦ c == 'e' || c == 'E'
  match cs.dropWhile (!isMark ·) with
  | [] => none
  | _ :: exponent =>
    match ofChars? (cs.takeWhile (!isMark ·)), exponent with
    | none, _ => none
    | some d, '-' :: digits => do
      let n ← Text.readNat? (String.ofList digits)
      if n ≤ maxScale then d.shiftDown n else none
    | some d, digits => do
      let n ← Text.readNat? (String.ofList digits)
      if n ≤ maxScale then d.shiftUp n else none

/-- Reads a decimal with or without an exponent. -/
def read? (s : String) : Option Decimal := (ofString? s).or (ofScientific? s)

end Decimal

end LoanClosing
