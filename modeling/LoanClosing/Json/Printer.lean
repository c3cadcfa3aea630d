import LoanClosing.Json.Basic

/-!
# Writing JSON

Two layouts of a JSON value: compact, with nothing between the tokens, and pretty, with every item
and member on a line of its own, indented by two spaces for each level. In both a text is written
between double quotes; only quotes, backslashes and control characters are escaped.
-/

namespace LoanClosing.Json

/-- A lower-case hexadecimal digit. -/
def hexDigit (n : Nat) : Char := Nat.digitChar (n % 16)

/-- A character inside a text. -/
def escapeChar (c : Char) : List Char :=
  if c = '\x22' then ['\x5c', '\x22']
  else if c = '\x5c' then ['\x5c', '\x5c']
  else if c.toNat = 8 then ['\x5c', 'b']
  else if c.toNat = 12 then ['\x5c', 'f']
  else if c.toNat = 10 then ['\x5c', 'n']
  else if c.toNat = 13 then ['\x5c', 'r']
  else if c.toNat = 9 then ['\x5c', 't']
  else if c.toNat < 32 then
    ['\x5c', 'u', '0', '0', hexDigit (c.toNat / 16), hexDigit c.toNat]
  else [c]

/-- A text between double quotes. -/
def quotedChars (s : String) : List Char := '\x22' :: (s.toList.flatMap escapeChar ++ ['\x22'])

mutual

/-- The compact layout of a value. -/
def compactChars : Json → List Char
  | .null => ['n', 'u', 'l', 'l']
  | .bool true => ['t', 'r', 'u', 'e']
  | .bool false => ['f', 'a', 'l', 's', 'e']
  | .number n => n.chars
  | .text s => quotedChars s
  | .array [] => ['[', ']']
  | .array (item :: items) => '[' :: (compactChars item ++ compactItems items ++ [']'])
  | .object [] => ['\x7b', '\x7d']
  | .object ((key, value) :: members) =>
    '\x7b' :: (quotedChars key ++ ':' :: (compactChars value ++ compactMembers members ++ ['\x7d']))

/-- The items after the first one, each behind a comma. -/
def compactItems : List Json → List Char
  | [] => []
  | item :: items => ',' :: (compactChars item ++ compactItems items)

/-- The members after the first one, each behind a comma. -/
def compactMembers : List (String × Json) → List Char
  | [] => []
  | (key, value) :: members =>
    ',' :: (quotedChars key ++ ':' :: (compactChars value ++ compactMembers members))

end

/-- The compact text of a value. -/
def compact (j : Json) : String := String.ofList (compactChars j)

/-- The start of a line at a level of nesting. -/
def newline (level : Nat) : List Char := '\n' :: List.replicate (2 * level) ' '

mutual

/-- The pretty layout of a value that starts at a level of nesting. -/
def prettyChars (level : Nat) : Json → List Char
  | .null => ['n', 'u', 'l', 'l']
  | .bool true => ['t', 'r', 'u', 'e']
  | .bool false => ['f', 'a', 'l', 's', 'e']
  | .number n => n.chars
  | .text s => quotedChars s
  | .array [] => ['[', ']']
  | .array (item :: items) =>
    '[' :: (newline (level + 1) ++ prettyChars (level + 1) item ++ prettyItems (level + 1) items ++
      newline level ++ [']'])
  | .object [] => ['\x7b', '\x7d']
  | .object ((key, value) :: members) =>
    '\x7b' :: (newline (level + 1) ++ quotedChars key ++ [':', ' '] ++
      prettyChars (level + 1) value ++ prettyMembers (level + 1) members ++
      newline level ++ ['\x7d'])

/-- The items after the first one, each behind a comma and on its own line. -/
def prettyItems (level : Nat) : List Json → List Char
  | [] => []
  | item :: items =>
    ',' :: (newline level ++ prettyChars level item ++ prettyItems level items)

/-- The members after the first one, each behind a comma and on its own line. -/
def prettyMembers (level : Nat) : List (String × Json) → List Char
  | [] => []
  | (key, value) :: members =>
    ',' :: (newline level ++ quotedChars key ++ [':', ' '] ++ prettyChars level value ++
      prettyMembers level members)

end

/-- The pretty text of a value. -/
def pretty (j : Json) : String := String.ofList (prettyChars 0 j)

end LoanClosing.Json
