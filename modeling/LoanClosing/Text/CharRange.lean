/-!
# Ranges of characters

Properties of characters are given as tables of ranges.
-/

namespace LoanClosing.Text

/-- Whether a character lies in one of the ranges, ends included. -/
def inRanges (table : List (Nat × Nat)) (c : Char) : Bool :=
  table.any fun (first, last) ↦ first ≤ c.toNat && c.toNat ≤ last

end LoanClosing.Text
