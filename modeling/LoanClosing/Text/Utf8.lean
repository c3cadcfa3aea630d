/-!
# Bytes as characters

The characters that a byte sequence holds in UTF-8. A byte that begins no well-formed character
stands as `none`, so that a reader can tell what it meets first. Where bytes are shown and not read,
a mark stands in place of those that are no characters.
-/

namespace LoanClosing.Text.Utf8

private def isTail (b : UInt8) : Bool := 0x80 ≤ b.toNat && b.toNat ≤ 0xBF

private def tailBits (b : UInt8) : Nat := b.toNat % 0x40

/-- The first character of a byte sequence and the number of bytes it takes after the first one. -/
def first? : List UInt8 → Option (Char × Nat)
  | [] => none
  | a :: rest =>
    let lead := a.toNat
    if lead < 0x80 then some (Char.ofNat lead, 0)
    else if 0xC2 ≤ lead ∧ lead ≤ 0xDF then
      match rest with
      | b :: _ =>
        if isTail b then some (Char.ofNat ((lead - 0xC0) * 0x40 + tailBits b), 1) else none
      | [] => none
    else if 0xE0 ≤ lead ∧ lead ≤ 0xEF then
      match rest with
      | b :: c :: _ =>
        let n := ((lead - 0xE0) * 0x40 + tailBits b) * 0x40 + tailBits c
        if isTail b && isTail c && 0x800 ≤ n && !(0xD800 ≤ n && n ≤ 0xDFFF) then
          some (Char.ofNat n, 2)
        else none
      | _ => none
    else if 0xF0 ≤ lead ∧ lead ≤ 0xF4 then
      match rest with
      | b :: c :: d :: _ =>
        let n := (((lead - 0xF0) * 0x40 + tailBits b) * 0x40 + tailBits c) * 0x40 + tailBits d
        if isTail b && isTail c && isTail d && 0x10000 ≤ n && n ≤ 0x10FFFF then
          some (Char.ofNat n, 3)
        else none
      | _ => none
    else none

/-- The characters of a byte sequence, `none` for every byte that begins none. -/
def scalars : List UInt8 → List (Option Char)
  | [] => []
  | a :: rest =>
    match first? (a :: rest) with
    | some (c, taken) => some c :: scalars (rest.drop taken)
    | none => none :: scalars rest
termination_by bytes => bytes.length
decreasing_by all_goals simp only [List.length_cons, List.length_drop]; omega

/-- The characters of a stored text: those of the string when the bytes hold one, else what can be
made out byte by byte. -/
def decode (bytes : ByteArray) : List (Option Char) :=
  match String.fromUTF8? bytes with
  | some s => s.toList.map some
  | none => scalars bytes.toList

/-- Whether bytes are the first ones of a character. -/
def beginsCharacter (bytes : List UInt8) : Bool :=
  [0x80, 0xBF].any fun tail ↦ (first? (bytes ++ List.replicate 3 tail)).isSome

/-- How many bytes share one mark at the front of a sequence that begins with no character: those
that begin one which is cut short, or the first byte alone. -/
def brokenLength (bytes : List UInt8) : Nat :=
  ([3, 2].find? fun n ↦ n ≤ bytes.length && beginsCharacter (bytes.take n)).getD 1

/-- The characters of a byte sequence, with marks in place of what is no character. -/
def marked : List UInt8 → List Char
  | [] => []
  | a :: rest =>
    match first? (a :: rest) with
    | some (c, taken) => c :: marked (rest.drop taken)
    | none => '\uFFFD' :: marked (rest.drop (brokenLength (a :: rest) - 1))
termination_by bytes => bytes.length
decreasing_by all_goals simp only [List.length_cons, List.length_drop]; omega

/-- The text that is shown for bytes. -/
def shown (bytes : ByteArray) : String :=
  match String.fromUTF8? bytes with
  | some s => s
  | none => String.ofList (marked bytes.toList)

/-- The bytes of a text hold that text. -/
@[simp] theorem fromUTF8?_toUTF8 (s : String) : String.fromUTF8? s.toUTF8 = some s :=
  dif_pos s.isValidUTF8

/-- A text is shown for its bytes as it is. -/
@[simp] theorem shown_toUTF8 (s : String) : shown s.toUTF8 = s := by
  rw [shown, fromUTF8?_toUTF8]

end LoanClosing.Text.Utf8
