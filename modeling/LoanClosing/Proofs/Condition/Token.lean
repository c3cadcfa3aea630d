import LoanClosing.Condition.Parser

/-!
# The tokens of a condition

A condition is read character by character. To say which texts are conditions it is easier to cut a
text into tokens first: quoted texts, numbers, marked paths, words in any ASCII case, and signs,
each as long as it can be. A text that holds anything else has no tokens.
-/

namespace LoanClosing.Condition

/-- A token. -/
inductive Token where
  | openParen
  | closeParen
  | not
  | and
  | or
  | compare (comparison : Comparison)
  | literal (value : Literal)
  | path (segments : List String)
  deriving DecidableEq, Repr

namespace Token

/-- The token of a word, which is a keyword in any ASCII case. -/
def ofWord? (word : List Char) : Option Token :=
  match String.ofList (word.map Char.toLower) with
  | "or" | "orelse" => some .or
  | "and" | "andalso" => some .and
  | "not" => some .not
  | "true" => some (.literal (.bool true))
  | "false" => some (.literal (.bool false))
  | "null" | "nothing" => some (.literal .null)
  | _ => none

/-- The token that is written by the two characters, if they are a sign together. -/
def ofPair? : Char → Char → Option Token
  | '&', '&' => some .and
  | '|', '|' => some .or
  | '=', '=' => some (.compare .equal)
  | '!', '=' => some (.compare .unequal)
  | '<', '=' => some (.compare .atMost)
  | '>', '=' => some (.compare .atLeast)
  | _, _ => none

/-- The token that is written by a single character. -/
def ofSign? : Char → Option Token
  | '(' => some .openParen
  | ')' => some .closeParen
  | '!' => some .not
  | '<' => some (.compare .less)
  | '>' => some (.compare .greater)
  | _ => none

/-- The token that begins with a character and the number of characters it takes after that one. -/
def next? (c : Char) (rest : List Char) : Option (Token × Nat) :=
  if isQuote c then
    let body := rest.takeWhile (· != c)
    if body.length < rest.length then
      some (.literal (.text (String.ofList body)), body.length + 1)
    else none
  else if c = '@' then
    match nameLength rest with
    | 0 => none
    | n => some (.path (segmentsOf (rest.take n)), n)
  else if Text.isIdentifierStart c then
    let more := rest.takeWhile Text.isIdentifierPart
    (ofWord? (c :: more)).map (·, more.length)
  else if c.isDigit then number (numberLength (c :: rest) - 1)
  else if c = '-' then
    match numberLength rest with
    | 0 => none
    | n => number n
  else
    match rest.head?.bind (ofPair? c) with
    | some token => some (token, 1)
    | none => (ofSign? c).map (·, 0)
where
  /-- A number with the given number of characters after the first one. -/
  number (more : Nat) : Option (Token × Nat) :=
    (Decimal.ofChars? (c :: rest.take more)).map fun amount ↦ (.literal (.number amount), more)

/-- The token at the front of a text, and what is behind it. -/
def first? : List Char → Option (Token × List Char)
  | [] => none
  | c :: rest => (next? c rest).map fun (token, taken) ↦ (token, rest.drop taken)

/-- The tokens of a text. -/
def scan? : List Char → Option (List Token)
  | [] => some []
  | c :: rest =>
    if isGap c then scan? rest
    else
      match next? c rest with
      | none => none
      | some (token, taken) => (scan? (rest.drop taken)).map (token :: ·)
termination_by cs => cs.length
decreasing_by all_goals simp only [List.length_cons, List.length_drop]; omega

end Token

/-- A gap in front of tokens is passed over. -/
theorem scan?_gap {gap rest : List Char} (hg : gap.all isGap = true) :
    Token.scan? (gap ++ rest) = Token.scan? rest := by
  induction gap with
  | nil => rfl
  | cons c gap ih =>
    rw [List.all_cons, Bool.and_eq_true] at hg
    rw [List.cons_append, Token.scan?, if_pos hg.1, ih hg.2]

theorem scan?_skipGap (cs : List Char) : Token.scan? (skipGap cs) = Token.scan? cs := by
  have hg : (cs.takeWhile isGap).all isGap = true := List.all_takeWhile
  rw [← List.takeWhile_append_dropWhile (p := isGap) (l := cs), scan?_gap hg, skipGap,
    List.takeWhile_append_dropWhile]

end LoanClosing.Condition
