import LoanClosing.Text.Ascii

/-!
# Percent encoding

In a path a byte may be written as a percent sign and two hexadecimal digits. A percent sign that no
such digits follow stands for itself.
-/

namespace LoanClosing.Text

/-- The byte of two hexadecimal digits. -/
def hexByte? (high low : UInt8) : Option UInt8 :=
  match hexValue? (Char.ofNat high.toNat), hexValue? (Char.ofNat low.toNat) with
  | some a, some b => some (UInt8.ofNat (16 * a + b))
  | _, _ => none

/-- The bytes that an encoded path stands for. -/
def percentDecode : List UInt8 → List UInt8
  | 37 :: high :: low :: rest =>
    match hexByte? high low with
    | some byte => byte :: percentDecode rest
    | none => 37 :: percentDecode (high :: low :: rest)
  | byte :: rest => byte :: percentDecode rest
  | [] => []

/-- The text that an encoded path stands for, if its bytes hold one. -/
def percentDecoded? (s : String) : Option String :=
  String.fromUTF8? ⟨(percentDecode s.toUTF8.toList).toArray⟩

end LoanClosing.Text
