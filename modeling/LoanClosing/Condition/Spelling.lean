import LoanClosing.Text.Ascii

/-!
# Spellings of a condition

Authors write conditions loosely. `normalize` folds typographic quotes to plain ones, doubles a lone
equals sign and writes `<>` as `!=`; `qualify` puts `@` before every word that names something in
scope. Both leave alone what stands between quotes.
-/

namespace LoanClosing.Condition

/-- The plain quote that a typographic one stands for; other characters stay. -/
def foldQuote (c : Char) : Char :=
  if c = '\u201c' ∨ c = '\u201d' ∨ c = '\u201e' ∨ c = '\u201f' ∨ c = '\u2033' then '\x22'
  else if c = '\u2018' ∨ c = '\u2019' ∨ c = '\u201a' ∨ c = '\u201b' ∨ c = '\u2032' then '\x27'
  else c

/-- Whether a character is one of the plain quotes. -/
def isQuote (c : Char) : Bool := c == '\x22' || c == '\x27'

/-- Whether a character may stand right before an equals sign in an operator. -/
def joinsEquals (c : Char) : Bool := c == '=' || c == '!' || c == '<' || c == '>'

/-- Rewrites operators outside quotes. The quote that is open and the character before are given. -/
def relax : Option Char → Option Char → List Char → List Char
  | _, _, [] => []
  | some quote, _, c :: rest =>
    c :: relax (if c = quote then none else some quote) (some c) rest
  | none, before, c :: rest =>
    if isQuote c then c :: relax (some c) (some c) rest
    else
      match c, rest with
      | '<', '>' :: rest => '!' :: '=' :: relax none (some '>') rest
      | c, rest =>
        if c = '=' && rest.head? != some '=' && !before.any joinsEquals then
          '=' :: '=' :: relax none (some c) rest
        else c :: relax none (some c) rest

/-- A quote stays and opens a text. -/
theorem relax_quote {before : Option Char} {c : Char} {rest : List Char} (hq : isQuote c = true) :
    relax none before (c :: rest) = c :: relax (some c) (some c) rest := by
  rw [relax]
  · rw [if_pos hq]
  · rintro more rfl
    exact absurd hq (by decide)

/-- A condition with plain quotes and with operators in one spelling. -/
def normalize (cs : List Char) : List Char := relax none none (cs.map foldQuote)

/-- Whether a character before a letter makes it part of a word, a number or a path. -/
def joinsWord (c : Char) : Bool := Text.isIdentifierPart c || c == '.' || c == '@'

/-- Marks the words outside quotes that are among the names. The quote that is open and the
character before are given. -/
def mark (names : List String) : Option Char → Option Char → List Char → List Char
  | _, _, [] => []
  | some quote, _, c :: rest =>
    c :: mark names (if c = quote then none else some quote) (some c) rest
  | none, before, c :: rest =>
    if isQuote c then c :: mark names (some c) (some c) rest
    else if Text.isIdentifierStart c && !before.any joinsWord &&
        names.contains (String.ofList ((c :: rest).takeWhile Text.isIdentifierPart)) then
      '@' :: c :: mark names none (some c) rest
    else c :: mark names none (some c) rest

/-- A condition with `@` before every reference to one of the names. -/
def qualify (names : List String) (cs : List Char) : List Char := mark names none none cs

end LoanClosing.Condition
