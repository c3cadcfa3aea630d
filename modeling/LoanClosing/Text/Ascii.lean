/-!
# ASCII letters, identifiers and splitting

Names of members, context keys and flags compare without regard to the case of ASCII letters; all
other characters compare as they are. An identifier is an ASCII letter or underscore followed by
ASCII letters, digits and underscores.
-/

namespace LoanClosing.Text

/-- A text with its ASCII capitals made small. -/
def lowerAscii (s : String) : String := String.ofList (s.toList.map Char.toLower)

/-- A text with its small ASCII letters made capital. -/
def upperAscii (s : String) : String := String.ofList (s.toList.map Char.toUpper)

/-- Equality up to the case of ASCII letters. -/
def sameFolded (a b : String) : Bool := a.toList.map Char.toLower == b.toList.map Char.toLower

/-- The first character of an identifier: an ASCII letter or an underscore. -/
def isIdentifierStart (c : Char) : Bool := c.isAlpha || c == '_'

/-- A later character of an identifier: an ASCII letter, a digit or an underscore. -/
def isIdentifierPart (c : Char) : Bool := c.isAlphanum || c == '_'

/-- An ASCII identifier. -/
def isIdentifier : List Char → Bool
  | [] => false
  | c :: cs => isIdentifierStart c && cs.all isIdentifierPart

/-- The identifier that a text begins with, and what is behind it. -/
def identifierAtFront? : List Char → Option (List Char × List Char)
  | [] => none
  | c :: cs =>
    if isIdentifierStart c then
      some (c :: cs.takeWhile isIdentifierPart, cs.dropWhile isIdentifierPart)
    else none

/-- The pieces between the occurrences of a separator; there is always at least one. -/
def splitAt (separator : Char) : List Char → List (List Char)
  | [] => [[]]
  | c :: cs =>
    if c == separator then [] :: splitAt separator cs
    else
      match splitAt separator cs with
      | [] => [[c]]
      | p :: ps => (c :: p) :: ps

/-- One or more identifiers with a dot between two of them. -/
def isDottedName (cs : List Char) : Bool := (splitAt '.' cs).all isIdentifier

/-- The value of a decimal digit. -/
def digitValue (c : Char) : Nat := c.toNat - '0'.toNat

/-- The number that a run of decimal digits writes. -/
def digitsValue (cs : List Char) : Nat := cs.foldl (fun n c ↦ 10 * n + digitValue c) 0

/-- The decimal digits of a number, with zeros in front up to the given length. -/
def padded (length n : Nat) : List Char :=
  let digits := Nat.toDigits 10 n
  List.replicate (length - digits.length) '0' ++ digits

/-- The value of a hexadecimal digit of either case. -/
def hexValue? (c : Char) : Option Nat :=
  if c.isDigit then some (c.toNat - '0'.toNat)
  else if 'a' ≤ c ∧ c ≤ 'f' then some (c.toNat - 'a'.toNat + 10)
  else if 'A' ≤ c ∧ c ≤ 'F' then some (c.toNat - 'A'.toNat + 10)
  else none

/-- A natural number written in ASCII digits after an optional plus sign. -/
def readNat? (s : String) : Option Nat :=
  let digits := match s.toList with
    | '+' :: rest => rest
    | cs => cs
  if digits.isEmpty || !digits.all Char.isDigit then none else some (digitsValue digits)

/-- An integer written in ASCII digits after an optional sign. -/
def readInt? (s : String) : Option Int :=
  match s.toList with
  | '-' :: digits =>
    if digits.isEmpty || !digits.all Char.isDigit then none else some (-(digitsValue digits : Int))
  | _ => (readNat? s).map Int.ofNat

/-- Whether one text occurs inside another. -/
def occursIn (piece : List Char) : List Char → Bool
  | [] => piece.isEmpty
  | c :: cs => piece.isPrefixOf (c :: cs) || occursIn piece cs

/-- There is always a piece. -/
theorem splitAt_ne_nil (separator : Char) (cs : List Char) : splitAt separator cs ≠ [] := by
  cases cs with
  | nil => simp [splitAt]
  | cons c cs =>
    unfold splitAt
    split
    · simp
    · split <;> simp

/-- Without the separator there is one piece. -/
theorem splitAt_of_notMem {separator : Char} {cs : List Char} (h : separator ∉ cs) :
    splitAt separator cs = [cs] := by
  induction cs with
  | nil => rfl
  | cons c cs ih =>
    rw [List.mem_cons, not_or] at h
    simp [splitAt, Ne.symm h.1, ih h.2]

/-- The separator ends a piece. -/
theorem splitAt_append_cons (separator : Char) (before after : List Char) :
    splitAt separator (before ++ separator :: after) =
      splitAt separator before ++ splitAt separator after := by
  induction before with
  | nil => simp [splitAt]
  | cons c before ih =>
    rw [List.cons_append, splitAt, splitAt, ih]
    split
    · rfl
    · cases hs : splitAt separator before with
      | nil => exact absurd hs (splitAt_ne_nil separator before)
      | cons piece pieces => rfl

end LoanClosing.Text
