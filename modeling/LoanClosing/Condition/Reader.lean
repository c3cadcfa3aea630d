import LoanClosing.Condition.Expr
import LoanClosing.Condition.Spelling

/-!
# Reading from the front of a text

A reader takes what it reads from the front of a text and gives back the rest, which is shorter. Of
several alternatives it takes the first that stands there. The readers here are those of the signs,
words, literals and paths of a condition; keywords have no case and end where a word ends.
-/

namespace LoanClosing.Condition

/-- Fewer characters than given. -/
abbrev Shorter (cs : List Char) := { rest : List Char // rest.length < cs.length }

/-- No more characters than given. -/
abbrev NoLonger (cs : List Char) := { rest : List Char // rest.length ≤ cs.length }

/-- What reads something from the front of a text. -/
abbrev Reader (α : Type) := (cs : List Char) → Option (α × Shorter cs)

section

variable {α β : Type}

theorem length_drop_lt (n : Nat) (c : Char) (cs : List Char) :
    (cs.drop n).length < (c :: cs).length := by
  rw [List.length_drop, List.length_cons]
  omega

/-- Takes as many characters as the given function finds at the front; there has to be one. -/
def recognize (length : List Char → Nat) : Reader (List Char)
  | [] => none
  | c :: cs =>
    match length (c :: cs) with
    | 0 => none
    | n + 1 => some (c :: cs.take n, ⟨cs.drop n, length_drop_lt n c cs⟩)

/-- Takes a certain character. -/
def char? (c : Char) : Reader Char
  | [] => none
  | d :: cs => if d = c then some (c, ⟨cs, Nat.lt_succ_self cs.length⟩) else none

/-- The first of the alternatives that stands at the front. Each is what it means and the number of
characters that it takes there. -/
def oneOf (alternatives : List (α × (List Char → Nat))) : Reader α := fun cs ↦
  alternatives.findSome? fun (meaning, length) ↦
    (recognize length cs).map fun (_, rest) ↦ (meaning, rest)

/-- What has been read first, and what is read behind it. -/
def pair {cs : List Char} (first : Option (β × Shorter cs))
    (second : (rest : List Char) → rest.length < cs.length → Option (α × Shorter rest)) :
    Option ((β × α) × Shorter cs) := do
  let (b, ⟨rest, h⟩) ← first
  let (a, ⟨rest', h'⟩) ← second rest h
  some ((b, a), ⟨rest', Nat.lt_trans h' h⟩)

/-! ## Gaps -/

/-- Whether a character may stand between the parts of a condition. -/
def isGap (c : Char) : Bool := c == ' ' || c == '\t' || c == '\r' || c == '\n'

/-- A text without the gap at its front. -/
def skipGap (cs : List Char) : List Char := cs.dropWhile isGap

theorem length_skipGap_le (cs : List Char) : (skipGap cs).length ≤ cs.length :=
  (List.dropWhile_sublist isGap).length_le

/-- What has been read behind a gap, with the gap behind it taken too. -/
def betweenGaps {cs : List Char} (read : Option (α × Shorter (skipGap cs))) :
    Option (α × Shorter cs) :=
  read.map fun (a, ⟨rest, h⟩) ↦
    (a, ⟨skipGap rest, by
      have := length_skipGap_le rest
      have := length_skipGap_le cs
      omega⟩)

/-- Reads something with a gap before and behind it. -/
def spaced (read : Reader α) : Reader α := fun cs ↦ betweenGaps (read (skipGap cs))

end

/-! ## Signs and words -/

/-- The length of a sign, if it stands at the front. -/
def signLength (sign cs : List Char) : Nat := if sign.isPrefixOf cs then sign.length else 0

/-- The length of a keyword, if it stands at the front in any ASCII case and no longer word does. -/
def wordLength (word : String) (cs : List Char) : Nat :=
  let length := word.toList.length
  if (cs.take length).map Char.toLower == word.toList &&
      !(cs.drop length).head?.any Text.isIdentifierPart then length
  else 0

/-- The length of `!`, if it stands at the front and is not the beginning of `!=`. -/
def bangLength (cs : List Char) : Nat :=
  if (cs.drop 1).head? == some '=' then 0 else signLength ['!'] cs

/-- The sign between two parts of a disjunction. -/
def orSign? : Reader Unit :=
  oneOf [((), signLength ['|', '|']), ((), wordLength "orelse"), ((), wordLength "or")]

/-- The sign between two parts of a conjunction. -/
def andSign? : Reader Unit :=
  oneOf [((), signLength ['&', '&']), ((), wordLength "andalso"), ((), wordLength "and")]

/-- The sign in front of what is negated. -/
def notSign? : Reader Unit := oneOf [((), bangLength), ((), wordLength "not")]

/-- The sign between what is compared. -/
def compareSign? : Reader Comparison :=
  oneOf [(.equal, signLength ['=', '=']), (.unequal, signLength ['!', '=']),
    (.atMost, signLength ['<', '=']), (.atLeast, signLength ['>', '=']),
    (.less, signLength ['<']), (.greater, signLength ['>'])]

/-! ## Literals and paths -/

/-- A text between two quotes of one kind. -/
def text? : Reader Literal
  | [] => none
  | c :: cs =>
    let body := cs.takeWhile (· != c)
    if isQuote c && body.length < cs.length then
      some (.text (String.ofList body),
        ⟨cs.drop (body.length + 1), by rw [List.length_drop, List.length_cons]; omega⟩)
    else none

/-- The length of an unsigned number at the front: digits, and a point with digits after it; zero
when there is none. -/
def numberLength (cs : List Char) : Nat :=
  let whole := cs.takeWhile Char.isDigit
  match whole, cs.dropWhile Char.isDigit with
  | [], _ => 0
  | _, '.' :: rest =>
    match rest.takeWhile Char.isDigit with
    | [] => whole.length
    | places => whole.length + 1 + places.length
  | _, _ => whole.length

/-- The length of a number with an optional minus at the front; zero when there is none. -/
def numeralLength : List Char → Nat
  | '-' :: cs =>
    match numberLength cs with
    | 0 => 0
    | n => n + 1
  | cs => numberLength cs

/-- A number. One that has too many digits for an amount is none. -/
def number? : Reader Literal := fun cs ↦ do
  let (digits, rest) ← recognize numeralLength cs
  let amount ← Decimal.ofChars? digits
  some (.number amount, rest)

/-- A word that is a value. -/
def constant? : Reader Literal :=
  oneOf [(.bool true, wordLength "true"), (.bool false, wordLength "false"),
    (.null, wordLength "null"), (.null, wordLength "nothing")]

theorem length_lt_of_dropWhile {c : Char} {rest more : List Char}
    (h : rest.dropWhile Text.isIdentifierPart = '.' :: more) :
    more.length < (c :: rest).length := by
  have := (List.dropWhile_sublist Text.isIdentifierPart (l := rest)).length_le
  rw [h] at this
  simp only [List.length_cons] at this ⊢
  omega

/-- The length of a dotted name at the front; zero when there is none. -/
def nameLength : List Char → Nat
  | [] => 0
  | c :: rest =>
    if Text.isIdentifierStart c then
      let part := rest.takeWhile Text.isIdentifierPart
      match h : rest.dropWhile Text.isIdentifierPart with
      | '.' :: more =>
        have : more.length < (c :: rest).length := length_lt_of_dropWhile h
        match nameLength more with
        | 0 => 1 + part.length
        | n + 1 => 1 + part.length + 1 + (n + 1)
      | _ => 1 + part.length
    else 0
termination_by cs => cs.length
decreasing_by assumption

/-- The segments of a dotted name. -/
def segmentsOf (name : List Char) : List String := (Text.splitAt '.' name).map String.ofList

/-- A marked path. -/
def path? : Reader (List String)
  | '@' :: cs =>
    (recognize nameLength cs).map fun (name, ⟨rest, h⟩) ↦
      (segmentsOf name, ⟨rest, Nat.lt_succ_of_lt h⟩)
  | _ => none

/-- A literal or a path. -/
def atom? : Reader Expr := fun cs ↦
  ((text? cs <|> number? cs <|> constant? cs).map fun (value, rest) ↦ (.literal value, rest)) <|>
    (path? cs).map fun (segments, rest) ↦ (.path segments, rest)

end LoanClosing.Condition
