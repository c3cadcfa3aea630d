/-!
# Binary floating point in exact arithmetic

Finite numbers of sixty-four bits, the nearest one to a decimal, and the fewest decimal digits that
read back as a given one. All arithmetic is on naturals: a decimal is taken to the nearest number, a
tie to the even significand, and the digits are found by trying the two neighbours of the number on
every decimal grid, coarse ones first. `scaled?` is the cheaper way from a decimal to a number: it
rounds at every step and may miss the nearest number by the last bits.
-/

namespace LoanClosing

/-- The number `± significand * 2 ^ exponent`. A number other than zero has fifty-three significant
bits, or the least exponent. -/
structure Binary64 where
  /-- Whether the sign is minus; zero has a sign too. -/
  negative : Bool
  /-- The significant bits. -/
  significand : Nat
  /-- The power of two. -/
  exponent : Int
  deriving DecidableEq, Repr

namespace Binary64

/-- The least exponent. -/
def minExponent : Int := -1074

/-- The largest exponent. -/
def maxExponent : Int := 971

/-- The quotient of two naturals rounded to nearest, a tie to the even neighbour. -/
def roundHalfEven (n divisor : Nat) : Nat :=
  let q := n / divisor
  let twice := 2 * (n % divisor)
  if twice < divisor then q
  else if divisor < twice then q + 1
  else if q % 2 = 0 then q
  else q + 1

/-- The exponent that leaves `n / divisor` fifty-three bits before the point, or the least one. -/
def exponentFor (n divisor : Nat) : Int :=
  let guess : Int := (n.log2 : Int) - divisor.log2 - 52
  let fits :=
    if 0 ≤ guess then divisor * Nat.pow 2 guess.toNat * Nat.pow 2 52 ≤ n
    else divisor * Nat.pow 2 52 ≤ n * Nat.pow 2 (-guess).toNat
  max minExponent (if fits then guess else guess - 1)

/-- The nearest number to `n / divisor`, or `none` when that is too large. -/
def nearestQuotient? (negative : Bool) (n divisor : Nat) : Option Binary64 :=
  let exponent := exponentFor n divisor
  let significand :=
    if 0 ≤ exponent then roundHalfEven n (divisor * Nat.pow 2 exponent.toNat)
    else roundHalfEven (n * Nat.pow 2 (-exponent).toNat) divisor
  let (significand, exponent) :=
    if significand = Nat.pow 2 53 then (Nat.pow 2 52, exponent + 1) else (significand, exponent)
  if maxExponent < exponent then none
  else if significand = 0 then some ⟨negative, 0, 0⟩
  else some ⟨negative, significand, exponent⟩

/-- The nearest number to `coefficient * 10 ^ power`, or `none` when that is too large. A power far
out of range is decided without computing it. -/
def nearest? (negative : Bool) (coefficient : Nat) (power : Int) : Option Binary64 :=
  if coefficient = 0 then some ⟨negative, 0, 0⟩
  else
    let digits : Int := (Nat.toDigits 10 coefficient).length
    if 400 < digits + power then none
    else if digits + power < -400 then some ⟨negative, 0, 0⟩
    else if 0 ≤ power then nearestQuotient? negative (coefficient * Nat.pow 10 power.toNat) 1
    else nearestQuotient? negative coefficient (Nat.pow 10 (-power).toNat)

/-- A decimal `coefficient * 10 ^ power`. -/
abbrev Digits := Nat × Int

/-- The magnitude of a number as a quotient. -/
def quotient (x : Binary64) : Nat × Nat :=
  if 0 ≤ x.exponent then (x.significand * Nat.pow 2 x.exponent.toNat, 1)
  else (x.significand, Nat.pow 2 (-x.exponent).toNat)

/-- The power of ten of the first digit of `n / divisor`. -/
def leadingPower (n divisor : Nat) : Int :=
  if divisor ≤ n then (Nat.toDigits 10 (n / divisor)).length - 1
  else
    let length := (Nat.toDigits 10 (divisor / n)).length
    if divisor ≤ n * Nat.pow 10 (length - 1) then -(length - 1 : Int) else -(length : Int)

/-- The two neighbours of `n / divisor` among the multiples of `10 ^ power`, the nearer one first;
of two equally near ones the even one is first. -/
def neighbours (n divisor : Nat) (power : Int) : List Digits :=
  let (n, divisor) :=
    if 0 ≤ power then (n, divisor * Nat.pow 10 power.toNat)
    else (n * Nat.pow 10 (-power).toNat, divisor)
  let low := n / divisor
  if roundHalfEven n divisor = low then [(low, power), (low + 1, power)]
  else [(low + 1, power), (low, power)]

/-- A decimal without the zeros its coefficient ends with; the fuel bounds their number. -/
def dropZeros : Nat → Digits → Digits
  | 0, d => d
  | fuel + 1, (coefficient, power) =>
    if coefficient ≠ 0 ∧ coefficient % 10 = 0 then dropZeros fuel (coefficient / 10, power + 1)
    else (coefficient, power)

/-- The number itself as a decimal, with as many digits as that takes. -/
def exactDigits (x : Binary64) : Digits :=
  if 0 ≤ x.exponent then (x.significand * Nat.pow 2 x.exponent.toNat, 0)
  else (x.significand * Nat.pow 5 (-x.exponent).toNat, x.exponent)

/-! ## Products and quotients -/

/-- The product of two numbers, rounded to nearest, or `none` when that is too large. -/
def mul? (x y : Binary64) : Option Binary64 :=
  let (n, divisor) := x.quotient
  let (m, other) := y.quotient
  nearestQuotient? (x.negative != y.negative) (n * m) (divisor * other)

/-- The quotient of two numbers, rounded to nearest, or `none` when that is too large or is none. -/
def div? (x y : Binary64) : Option Binary64 :=
  let (n, divisor) := x.quotient
  let (m, other) := y.quotient
  if m = 0 then none
  else nearestQuotient? (x.negative != y.negative) (n * other) (divisor * m)

/-- The largest power of ten that is a number. -/
def maxTenPower : Nat := 308

/-- The nearest number to a power of ten. -/
def tenPower? (power : Nat) : Option Binary64 := nearest? false 1 power

/-- The number `significand * 10 ^ power` in steps that each round: the significand, the power of
ten, and their product or quotient. A small power is divided out in two steps, and one that leaves
nothing of any significand of sixty-four bits gives zero. -/
def scaled? (negative : Bool) (significand : Nat) (power : Int) : Option Binary64 := do
  let x ← nearestQuotient? negative significand 1
  if significand = 0 then some x
  else if 0 ≤ power then
    if power ≤ maxTenPower then x.mul? (← tenPower? power.toNat) else none
  else if -maxTenPower ≤ power then x.div? (← tenPower? (-power).toNat)
  else if -2 * maxTenPower ≤ power then
    (← x.div? (← tenPower? maxTenPower)).div? (← tenPower? (-power - maxTenPower).toNat)
  else some ⟨negative, 0, 0⟩

/-! ## The fewest digits -/

/-- The fewest digits that read back as the number, and of those the nearest ones. -/
def shortest (x : Binary64) : Digits :=
  if x.significand = 0 then (0, 0)
  else
    let (n, divisor) := x.quotient
    let lead := leadingPower n divisor
    let candidates :=
      (List.range 17).flatMap fun (more : Nat) ↦ neighbours n divisor (lead - (more : Int))
    match candidates.find? fun (c, p) ↦ nearest? x.negative c p == some x with
    | some d => dropZeros 20 d
    | none => x.exactDigits

end Binary64

end LoanClosing
