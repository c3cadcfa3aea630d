import LoanClosing.Text.CharRange
import LoanClosing.Text.LetterTable

/-!
# Letters and numbers of any script

What may be part of a name where names are not limited to ASCII.
-/

namespace LoanClosing.Text

/-- A letter or a number of any script. -/
def isLetterOrNumber (c : Char) : Bool :=
  if c.toNat < 0x80 then c.isAlphanum else inRanges LetterTable.lettersAndNumbers c

end LoanClosing.Text
