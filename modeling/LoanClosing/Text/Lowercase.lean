import LoanClosing.Text.CaseTable
import LoanClosing.Text.CharRange

/-!
# Lower case

The lower-case form of a text under the full Unicode mapping: every character has one form, except
that a capital sigma at the end of a word becomes a final sigma, and a capital I with a dot above
becomes two characters.
-/

namespace LoanClosing.Text

/-- The property `Cased`. -/
def isCased (c : Char) : Bool := c.isAlpha || inRanges CaseTable.cased c

/-- The property `Case_Ignorable`. -/
def isCaseIgnorable (c : Char) : Bool := inRanges CaseTable.caseIgnorable c

/-- The lower-case form of a character that has one of a single character, else the character. -/
def lowerChar (c : Char) : Char :=
  if c.toNat < 0x80 then c.toLower
  else
    match CaseTable.lowerRuns.find? fun (first, last, step, _) ↦
      first ≤ c.toNat && c.toNat ≤ last && (c.toNat - first) % step == 0 with
    | some (_, _, _, shift) => Char.ofNat (c.toNat + shift).toNat
    | none => c

/-- Whether a cased character comes first once case-ignorable ones are passed over. -/
def startsCased (cs : List Char) : Bool :=
  match cs.dropWhile isCaseIgnorable with
  | [] => false
  | c :: _ => isCased c

/-- The capital sigma. -/
def capitalSigma : Char := '\u03a3'

/-- The lower-case form of the characters that are left, given those before them, last first. -/
def lowerFrom (before : List Char) : List Char → List Char
  | [] => []
  | c :: after =>
    (if c == capitalSigma then
      [if startsCased before && !startsCased after then '\u03c2' else '\u03c3']
    else if c == '\u0130' then ['i', '\u0307']
    else [lowerChar c]) ++ lowerFrom (c :: before) after

/-- The lower-case form of a text. A capital sigma is final when a cased character comes before it
and none after it, with case-ignorable characters passed over on both sides. -/
def lowerChars (cs : List Char) : List Char := lowerFrom [] cs

/-- The lower-case form of a string. -/
def lower (s : String) : String := String.ofList (lowerChars s.toList)

end LoanClosing.Text
