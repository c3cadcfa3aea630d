import LoanClosing.Text.Ascii
import LoanClosing.Text.Blank

/-!
# Calendar dates

Dates of the Gregorian calendar, extended to years before its introduction. A date is read from
year, month and day with hyphens between them, and written out in words.
-/

namespace LoanClosing

/-- Whether a year has a 29th of February. -/
def isLeapYear (year : Int) : Bool := year % 4 == 0 && (year % 100 != 0 || year % 400 == 0)

/-- The number of days of a month. -/
def daysInMonth (year : Int) (month : Nat) : Nat :=
  if month = 2 then (if isLeapYear year then 29 else 28)
  else if month = 4 ∨ month = 6 ∨ month = 9 ∨ month = 11 then 30
  else 31

/-- Whether the calendar has a day. -/
def isCalendarDay (year : Int) (month day : Nat) : Bool :=
  -262143 ≤ year && year ≤ 262142 && 1 ≤ month && month ≤ 12 && 1 ≤ day &&
    day ≤ daysInMonth year month

/-- A date. -/
structure Date where
  year : Int
  month : Nat
  day : Nat
  /-- The calendar has the day. -/
  isDay : isCalendarDay year month day = true
  deriving DecidableEq, Repr

namespace Date

/-- The date with the given parts, if the calendar has it. -/
def ofParts? (year : Int) (month day : Nat) : Option Date :=
  if h : isCalendarDay year month day = true then some ⟨year, month, day, h⟩ else none

/-- The order of two dates in time. -/
def order (a b : Date) : Ordering :=
  (compare a.year b.year).then ((compare a.month b.month).then (compare a.day b.day))

/-! ## Reading -/

/-- Why a text is no date. -/
inductive Problem where
  | unexpected
  | early
  | trailing
  | outOfRange
  deriving DecidableEq, Repr

/-- The text of a problem. -/
def Problem.message : Problem → String
  | .unexpected => "input contains invalid characters"
  | .early => "premature end of input"
  | .trailing => "trailing input"
  | .outOfRange => "input is out of range"

/-- What is told about a text that is no date. -/
def Problem.report (problem : Problem) (s : String) : String :=
  "failed to parse '" ++ s ++ "' as YYYY-MM-DD (" ++ problem.message ++ ")"

/-- A number of at least one and at most the given number of digits, and the rest. -/
def readNumber (width : Option Nat) (cs : List Char) : Except Problem (Nat × List Char) :=
  let digits := match width with
    | some n => (cs.take n).takeWhile Char.isDigit
    | none => cs.takeWhile Char.isDigit
  match cs, digits with
  | [], _ => .error .early
  | _, [] => .error .unexpected
  | _, _ =>
    let n := Text.digitsValue digits
    if n < Nat.pow 2 63 then .ok (n, cs.drop digits.length) else .error .outOfRange

/-- A year: at most four digits, or any number of them after a sign. -/
def readYear (cs : List Char) : Except Problem (Int × List Char) := do
  let (year, rest) ← match Text.trimStart cs with
    | '-' :: rest => (readNumber none rest).map fun (n, rest) ↦ (-(n : Int), rest)
    | '+' :: rest => (readNumber none rest).map fun (n, rest) ↦ ((n : Int), rest)
    | rest => (readNumber (some 4) rest).map fun (n, rest) ↦ ((n : Int), rest)
  if -Int.pow 2 31 ≤ year ∧ year < Int.pow 2 31 then .ok (year, rest) else .error .outOfRange

/-- A month or a day: at most two digits, from one up to a limit. -/
def readPart (limit : Nat) (cs : List Char) : Except Problem (Nat × List Char) := do
  let (n, rest) ← readNumber (some 2) (Text.trimStart cs)
  if 1 ≤ n ∧ n ≤ limit then .ok (n, rest) else .error .outOfRange

/-- A hyphen. -/
def readHyphen : List Char → Except Problem (List Char)
  | [] => .error .early
  | c :: rest => if c = '-' then .ok rest else .error .unexpected

/-- Reads a date: year, month and day with hyphens between them, and blanks before each number and
at both ends. -/
def read (s : String) : Except Problem Date := do
  let (year, rest) ← readYear (Text.trimChars s.toList)
  let rest ← readHyphen rest
  let (month, rest) ← readPart 12 rest
  let rest ← readHyphen rest
  let (day, rest) ← readPart 31 rest
  if !rest.isEmpty then .error .trailing
  else
    match ofParts? year month day with
    | some date => .ok date
    | none => .error .outOfRange

/-- Reads a date, whatever the problem if there is one. -/
def read? (s : String) : Option Date := (read s).toOption

/-! ## Writing -/

/-- The English names of the months. -/
def monthNames : List String :=
  ["January", "February", "March", "April", "May", "June", "July", "August", "September",
    "October", "November", "December"]

/-- A year of at least four digits; one that is negative or has more digits has a sign. -/
def yearText (year : Int) : String :=
  (if year < 0 then "-" else if 9999 < year then "+" else "") ++
    String.ofList (Text.padded 4 year.natAbs)

/-- The long form of a date, such as `March 7, 2025`. -/
def text (date : Date) : String :=
  monthNames.getD (date.month - 1) "" ++ " " ++ toString date.day ++ ", " ++ yearText date.year

end Date

end LoanClosing
