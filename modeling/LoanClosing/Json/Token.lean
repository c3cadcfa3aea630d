import LoanClosing.Json.Basic
import LoanClosing.Json.Fault
import LoanClosing.Text.Ascii

/-!
# Tokens of a JSON text

A text is cut into tokens up to the first place where it breaks. Two faults do not break it, because
a reader that only skips over a value does not see them: a number out of range, and a text that
holds a lone surrogate or bytes that are no character; such a token carries its fault. A broken
token carries two faults, one for a reader of values and one for a reader that skips.
-/

namespace LoanClosing.Json

/-- A token. -/
inductive Token where
  | openArray
  | closeArray
  | openObject
  | closeObject
  | colon
  | comma
  | null
  | bool (value : Bool)
  | number (value : Except Fault Number)
  | text (value : Except Fault String)
  | broken (quoted : Bool) (strict lenient : Fault)

namespace Token

/-- The characters left to scan, `none` for a byte that begins none. -/
abbrev Rest := List (Option Char)

/-- A break with the same fault for every reader. -/
def brokenBy (fault : Fault) : Token := .broken false fault fault

/-- Whether a character may stand between tokens. -/
def isBlank (c : Char) : Bool := c == ' ' || c == '\n' || c == '\t' || c == '\r'

/-! ## Words and numbers -/

/-- The rest of a word, whose token is given. -/
def word (token : Token) : List Char → Rest → Token × Rest
  | [], rest => (token, rest)
  | _ :: _, [] => (.brokenBy .endOfValue, [])
  | c :: cs, d :: rest => if d = some c then word token cs rest else (.brokenBy .expectedWord, [])

/-- The decimal digits at the front. -/
def leadingDigits : Rest → List Char × Rest
  | some c :: rest =>
    if c.isDigit then ((c :: (leadingDigits rest).1), (leadingDigits rest).2)
    else ([], some c :: rest)
  | rest => ([], rest)

/-- Appends digits to a significand as long as it keeps to sixty-four bits, and gives the digits
left over. -/
def appendDigits (significand : Nat) : List Char → Nat × List Char
  | [] => (significand, [])
  | c :: cs =>
    let next := 10 * significand + Text.digitValue c
    if next < Nat.pow 2 64 then appendDigits next cs else (significand, c :: cs)

/-- The value of a number with a fraction or an exponent, or of a whole one that is too long. Of its
digits those count that keep the significand to sixty-four bits; of the others only the place
counts. -/
def floatNumber (negative : Bool) (whole places : List Char) (exponent : Int) :
    Except Fault Number :=
  let (significand, moreWhole) := appendDigits 0 whole
  let (significand, morePlaces) := appendDigits significand places
  let power := (moreWhole.length : Int) - (places.length - morePlaces.length : Nat) + exponent
  match Binary64.scaled? negative significand power with
  | some x => .ok (.float x)
  | none => .error .hugeNumber

/-- The value of a whole number: one of sixty-four bits stays whole, and zero with a sign does
not. -/
def wholeNumber (negative : Bool) (whole : List Char) : Except Fault Number :=
  let n := Text.digitsValue whole
  if negative && 0 < n && n ≤ Nat.pow 2 63 then .ok (.integer (-n))
  else if !negative && n < Nat.pow 2 64 then .ok (.integer n)
  else floatNumber negative whole [] 0

/-- A break inside a number: at the end of the text, or at a character that does not belong. -/
def brokenNumber (rest : Rest) : Token :=
  .broken false (if rest.isEmpty then .endOfValue else .unknownNumber) .unknownNumber

/-- A number whose exponent follows. -/
def exponentPart (negative : Bool) (whole places : List Char) (rest : Rest) : Token × Rest :=
  let (minus, rest) := match rest with
    | some '-' :: rest => (true, rest)
    | some '+' :: rest => (false, rest)
    | rest => (false, rest)
  match leadingDigits rest with
  | ([], _) => (brokenNumber rest, [])
  | (digits, rest) =>
    let size : Int := Text.digitsValue digits
    (.number (floatNumber negative whole places (if minus then -size else size)), rest)

/-- A number whose whole part has been read. -/
def afterWhole (negative : Bool) (whole : List Char) : Rest → Token × Rest
  | some '.' :: rest =>
    match leadingDigits rest with
    | ([], _) => (brokenNumber rest, [])
    | (places, some 'e' :: rest) | (places, some 'E' :: rest) =>
      exponentPart negative whole places rest
    | (places, rest) => (.number (floatNumber negative whole places 0), rest)
  | some 'e' :: rest | some 'E' :: rest => exponentPart negative whole [] rest
  | rest => (.number (wholeNumber negative whole), rest)

/-- A number after its sign. -/
def numberPart (negative : Bool) (rest : Rest) : Token × Rest :=
  match leadingDigits rest with
  | ([], _) => (brokenNumber rest, [])
  | ('0' :: _ :: _, _) => (.brokenBy .unknownNumber, [])
  | (whole, rest) => afterWhole negative whole rest

/-! ## Texts -/

/-- The bytes that characters take. -/
def byteCount : Rest → Nat
  | [] => 0
  | some c :: rest => c.utf8Size + byteCount rest
  | none :: rest => 1 + byteCount rest

/-- The value of four hexadecimal digits. -/
def hexFour? : Rest → Option Nat
  | some a :: some b :: some c :: some d :: _ => do
    some ((((← Text.hexValue? a) * 16 + (← Text.hexValue? b)) * 16 + (← Text.hexValue? c)) * 16 +
      (← Text.hexValue? d))
  | _ => none

/-- The character that a letter after a backslash stands for. -/
def escaped? : Char → Option Char
  | '\x22' => some '\x22'
  | '\x5c' => some '\x5c'
  | '/' => some '/'
  | 'b' => some '\x08'
  | 'f' => some '\x0c'
  | 'n' => some '\n'
  | 'r' => some '\r'
  | 't' => some '\t'
  | _ => none

/-- What has been read of a text. -/
structure Partial where
  /-- The characters so far, last one first. -/
  chars : List Char
  /-- The first half of a surrogate pair, when it came last. -/
  high : Option Nat
  /-- The first fault that does not break the text. -/
  fault : Option Fault
  /-- Whether all bytes belonged to characters. -/
  wellFormed : Bool

namespace Partial

/-- Before the first character. -/
def start : Partial := ⟨[], none, none, true⟩

/-- Records a fault unless there is one already. -/
def note (p : Partial) (fault : Fault) : Partial := { p with fault := p.fault.or (some fault) }

/-- Adds a character; a half surrogate pair before it is a fault. -/
def push (p : Partial) (c : Char) : Partial :=
  match p.high with
  | none => { p with chars := c :: p.chars }
  | some _ => { p.note .unpairedSurrogate with chars := c :: p.chars, high := none }

/-- Adds a code unit given by number. -/
def pushUnit (p : Partial) (n : Nat) : Partial :=
  let low := 0xDC00 ≤ n && n ≤ 0xDFFF
  match p.high with
  | some h =>
    if low then
      { p with
        chars := Char.ofNat (0x10000 + (h - 0xD800) * 0x400 + (n - 0xDC00)) :: p.chars
        high := none }
    else { p.note .loneSurrogate with high := none }
  | none =>
    if low then p.note .loneSurrogate
    else if 0xD800 ≤ n && n ≤ 0xDBFF then { p with high := some n }
    else { p with chars := Char.ofNat n :: p.chars }

/-- A byte that belongs to no character. -/
def pushIllFormed (p : Partial) : Partial :=
  match p.high with
  | none => { p with wellFormed := false }
  | some _ => { p.note .unpairedSurrogate with wellFormed := false, high := none }

/-- The text at its closing quote. -/
def close (p : Partial) : Token :=
  let p := if p.high.isSome then p.note .unpairedSurrogate else p
  match p.fault with
  | some fault => .text (.error fault)
  | none =>
    if p.wellFormed then .text (.ok (String.ofList p.chars.reverse))
    else .text (.error .unknownCharacter)

/-- A break inside a text. A reader of values meets an earlier fault first. -/
def broken (p : Partial) (fault : Fault) : Token :=
  .broken true (p.fault.getD fault) fault

end Partial

/-- A text after its opening quote. -/
def textPart (p : Partial) : Rest → Token × Rest
  | [] => (p.broken .endOfText, [])
  | none :: rest => textPart p.pushIllFormed rest
  | some c :: rest =>
    if c = '\x22' then (p.close, rest)
    else if c = '\x5c' then
      match rest with
      | [] => (p.broken .endOfText, [])
      | some 'u' :: rest =>
        if byteCount (rest.take 4) < 4 then (p.broken .endOfText, [])
        else
          match hexFour? rest with
          | some n => textPart (p.pushUnit n) (rest.drop 4)
          | none => (p.broken .unknownEscape, [])
      | some e :: rest =>
        let p := if p.high.isSome then p.note .unpairedSurrogate else p
        match escaped? e with
        | some c => textPart (p.push c) rest
        | none => (p.broken .unknownEscape, [])
      | none :: _ =>
        let p := if p.high.isSome then p.note .unpairedSurrogate else p
        (p.broken .unknownEscape, [])
    else if c.toNat < 32 then
      let p := if p.high.isSome then p.note .unpairedSurrogate else p
      (p.broken .controlCharacter, [])
    else textPart (p.push c) rest
termination_by rest => rest.length
decreasing_by all_goals simp only [List.length_cons, List.length_drop]; omega

/-! ## Scanning -/

/-- The token that begins with a character, and what is left after it. -/
def next (c : Char) (rest : Rest) : Token × Rest :=
  match c with
  | '[' => (.openArray, rest)
  | ']' => (.closeArray, rest)
  | '\x7b' => (.openObject, rest)
  | '\x7d' => (.closeObject, rest)
  | ':' => (.colon, rest)
  | ',' => (.comma, rest)
  | 'n' => word .null ['u', 'l', 'l'] rest
  | 't' => word (.bool true) ['r', 'u', 'e'] rest
  | 'f' => word (.bool false) ['a', 'l', 's', 'e'] rest
  | '\x22' => textPart .start rest
  | '-' => numberPart true rest
  | c => if c.isDigit then numberPart false (some c :: rest) else (.brokenBy .expectedValue, [])

/-- No more is left after a word than before it. -/
theorem word_length_le (token : Token) (cs : List Char) (rest : Rest) :
    (word token cs rest).2.length ≤ rest.length := by
  fun_induction word token cs rest <;> grind

/-- The digits at the front and what is left make up the whole. -/
theorem leadingDigits_length (rest : Rest) :
    (leadingDigits rest).1.length + (leadingDigits rest).2.length = rest.length := by
  fun_induction leadingDigits rest <;> grind

/-- No more is left after an exponent than before it. -/
theorem exponentPart_length_le (negative : Bool) (whole places : List Char) (rest : Rest) :
    (exponentPart negative whole places rest).2.length ≤ rest.length := by
  unfold exponentPart
  have key : ∀ r : Rest, r.length ≤ rest.length → ∀ minus : Bool,
      (match leadingDigits r with
        | ([], _) => (brokenNumber r, [])
        | (digits, r) =>
          let size : Int := Text.digitsValue digits
          (.number (floatNumber negative whole places (if minus then -size else size)), r) :
        Token × Rest).2.length ≤ rest.length := by
    intro r hr minus
    have h := leadingDigits_length r
    split
    · simp
    · next heq => rw [heq] at h; simp only at h ⊢; omega
  split
  next heq =>
    split at heq <;> simp only [Prod.mk.injEq] at heq <;> obtain ⟨rfl, rfl⟩ := heq <;>
      exact key _ (by simp) _

/-- No more is left after the parts behind a whole part than before them. -/
theorem afterWhole_length_le (negative : Bool) (whole : List Char) (rest : Rest) :
    (afterWhole negative whole rest).2.length ≤ rest.length := by
  unfold afterWhole
  split
  · next rest =>
    have h := leadingDigits_length rest
    split
    · simp
    · next heq =>
      rw [heq] at h
      have := exponentPart_length_le negative whole ‹_› ‹_›
      simp only [List.length_cons] at h ⊢
      omega
    · next heq =>
      rw [heq] at h
      have := exponentPart_length_le negative whole ‹_› ‹_›
      simp only [List.length_cons] at h ⊢
      omega
    · next heq => rw [heq] at h; simp only [List.length_cons] at h ⊢; omega
  · have := exponentPart_length_le negative whole [] ‹_›
    simp only [List.length_cons]; omega
  · have := exponentPart_length_le negative whole [] ‹_›
    simp only [List.length_cons]; omega
  · simp

/-- No more is left after a number than before it. -/
theorem numberPart_length_le (negative : Bool) (rest : Rest) :
    (numberPart negative rest).2.length ≤ rest.length := by
  unfold numberPart
  have h := leadingDigits_length rest
  split
  · simp
  · simp
  · next heq =>
    rw [heq] at h
    have := afterWhole_length_le negative ‹_› ‹_›
    simp only at h
    omega

/-- A number that begins with a digit takes it. -/
theorem numberPart_length_lt {c : Char} (hc : c.isDigit = true) (negative : Bool) (rest : Rest) :
    (numberPart negative (some c :: rest)).2.length ≤ rest.length := by
  unfold numberPart
  have h := leadingDigits_length (some c :: rest)
  have hpos : (leadingDigits (some c :: rest)).1 ≠ [] := by simp [leadingDigits, hc]
  split
  · next heq => rw [heq] at hpos; simp at hpos
  · simp
  · next whole rest' _ _ heq =>
    rw [heq] at h hpos
    have hle := afterWhole_length_le negative whole rest'
    have hlt := List.length_pos_iff.2 hpos
    simp only [List.length_cons] at h hlt
    omega

/-- No more is left after a text than before it. -/
theorem textPart_length_le (p : Partial) (rest : Rest) :
    (textPart p rest).2.length ≤ rest.length := by
  fun_induction textPart p rest <;> grind

/-- No more is left after a token than followed its first character. -/
theorem next_length_le (c : Char) (rest : Rest) : (next c rest).2.length ≤ rest.length := by
  unfold next
  split <;> try exact Nat.le_refl _
  · exact word_length_le ..
  · exact word_length_le ..
  · exact word_length_le ..
  · exact textPart_length_le ..
  · exact numberPart_length_le ..
  · split
    · exact numberPart_length_lt ‹_› ..
    · exact Nat.zero_le _

/-- Whether the text breaks at a token. -/
def isBroken : Token → Bool
  | .broken .. => true
  | _ => false

/-- The tokens of a text, up to the first broken one. -/
def scan : Rest → List Token
  | [] => []
  | none :: _ => [.brokenBy .expectedValue]
  | some c :: rest =>
    if isBlank c then scan rest
    else if (next c rest).1.isBroken then [(next c rest).1]
    else (next c rest).1 :: scan (next c rest).2
termination_by rest => rest.length
decreasing_by
  · simp
  · have := next_length_le c rest
    simp only [List.length_cons]
    omega

end Token

end LoanClosing.Json
