import LoanClosing.Text.CharRange
import LoanClosing.Text.EscapeTable

/-!
# Quoted texts in messages

How a message shows a text it complains about: between double quotes, with quotes, backslashes and
line ends escaped by a letter, and characters that do not show by themselves written by number.
-/

namespace LoanClosing.Text

/-- Whether a character is written by its number. -/
def isHidden (c : Char) : Bool := inRanges EscapeTable.hidden c

private def quoteChar (c : Char) : List Char :=
  if c == '\x22' || c == '\x5c' then ['\x5c', c]
  else if c == '\n' then ['\x5c', 'n']
  else if c == '\r' then ['\x5c', 'r']
  else if c == '\t' then ['\x5c', 't']
  else if c.toNat == 0 then ['\x5c', '0']
  else if isHidden c then ['\x5c', 'u', '\x7b'] ++ Nat.toDigits 16 c.toNat ++ ['\x7d']
  else [c]

/-- A text between double quotes, for a message. -/
def quoted (s : String) : String :=
  String.ofList (['\x22'] ++ s.toList.flatMap quoteChar ++ ['\x22'])

end LoanClosing.Text
