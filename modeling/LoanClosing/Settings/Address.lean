import LoanClosing.Text.Ascii

/-!
# Network addresses

An address of four octets in decimal, or of eight groups in hexadecimal, where one run of zero
groups may be left out and the last two groups may be written as four octets. A written address has
small letters and leaves out the longest run of at least two zero groups, the first one on ties.
-/

namespace LoanClosing

/-- An address. -/
inductive Address where
  | octets (a b c d : Nat)
  | groups (parts : List Nat)
  deriving DecidableEq, Repr

namespace Address

/-- The address of the machine itself. -/
def loopback : Address := .octets 127 0 0 1

/-! ## Reading -/

/-- A number at the front: at most three decimal digits, below 256, with no zero in front. -/
def readOctet (cs : List Char) : Option (Nat × List Char) :=
  let digits := cs.takeWhile Char.isDigit
  let n := Text.digitsValue digits
  if digits.isEmpty || 3 < digits.length || 255 < n ||
      (1 < digits.length && digits.head? == some '0') then none
  else some (n, cs.drop digits.length)

/-- A given character at the front. -/
def readChar (c : Char) : List Char → Option (List Char)
  | [] => none
  | d :: rest => if d = c then some rest else none

/-- Four octets at the front. -/
def readOctets (cs : List Char) : Option ((Nat × Nat × Nat × Nat) × List Char) := do
  let (a, rest) ← readOctet cs
  let (b, rest) ← readOctet (← readChar '.' rest)
  let (c, rest) ← readOctet (← readChar '.' rest)
  let (d, rest) ← readOctet (← readChar '.' rest)
  some ((a, b, c, d), rest)

/-- A group at the front: one to four hexadecimal digits. -/
def readGroup (cs : List Char) : Option (Nat × List Char) :=
  let digits := cs.takeWhile fun c ↦ (Text.hexValue? c).isSome
  if digits.isEmpty || 4 < digits.length then none
  else
    some (digits.foldl (fun n c ↦ 16 * n + (Text.hexValue? c).getD 0) 0, cs.drop digits.length)

/-- Groups at the front, with a colon before each but the first one of all: at most the given
number, and four octets for the last two. Tells whether they end in octets. -/
def readGroups (first : Bool) : Nat → List Char → List Nat × Bool × List Char
  | 0, cs => ([], false, cs)
  | limit + 1, cs =>
    match if first then some cs else readChar ':' cs with
    | none => ([], false, cs)
    | some inner =>
      match if limit = 0 then none else readOctets inner with
      | some ((a, b, c, d), rest) => ([256 * a + b, 256 * c + d], true, rest)
      | none =>
        match readGroup inner with
        | none => ([], false, cs)
        | some (group, rest) =>
          let (more, ended, rest) := readGroups false limit rest
          (group :: more, ended, rest)

/-- Eight groups at the front, with at most one run of zeros left out. -/
def readAllGroups (cs : List Char) : Option (List Nat × List Char) :=
  let (front, ended, rest) := readGroups true 8 cs
  if front.length = 8 then some (front, rest)
  else if ended then none
  else do
    let rest ← readChar ':' rest
    let rest ← readChar ':' rest
    let (back, _, rest) := readGroups true (7 - front.length) rest
    some (front ++ List.replicate (8 - front.length - back.length) 0 ++ back, rest)

/-- Reads an address. -/
def read? (s : String) : Option Address :=
  match readOctets s.toList with
  | some ((a, b, c, d), rest) => if rest.isEmpty then some (.octets a b c d) else none
  | none =>
    match readAllGroups s.toList with
    | some (parts, []) => some (.groups parts)
    | _ => none

/-! ## Writing -/

/-- The text of four octets. -/
def octetsText (a b c d : Nat) : String := ".".intercalate ([a, b, c, d].map toString)

/-- The text of a group. -/
def groupText (n : Nat) : String := String.ofList (Nat.toDigits 16 n)

/-- The number of zeros at the front. -/
def zeroCount (parts : List Nat) : Nat := (parts.takeWhile (· == 0)).length

/-- The place and the length of the longest run of zeros, the first one on ties. -/
def longestZeros : List Nat → Nat × Nat
  | [] => (0, 0)
  | group :: more =>
    let (place, length) := longestZeros more
    let here := zeroCount (group :: more)
    if here ≠ 0 ∧ length ≤ here then (0, here) else (place + 1, length)

/-- Groups with a colon between two of them. -/
def groupsText (parts : List Nat) : String := ":".intercalate (parts.map groupText)

/-- The text of an address. -/
def text : Address → String
  | .octets a b c d => octetsText a b c d
  | .groups [0, 0, 0, 0, 0, 0xFFFF, high, low] =>
    "::ffff:" ++ octetsText (high / 256) (high % 256) (low / 256) (low % 256)
  | .groups parts =>
    let (place, length) := longestZeros parts
    if 1 < length then
      groupsText (parts.take place) ++ "::" ++ groupsText (parts.drop (place + length))
    else groupsText parts

/-- The text of an address and a port. -/
def withPort (address : Address) (port : Nat) : String :=
  match address with
  | .octets .. => address.text ++ ":" ++ toString port
  | .groups _ => "[" ++ address.text ++ "]:" ++ toString port

end Address

end LoanClosing
