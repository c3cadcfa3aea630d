/-!
# What is wrong with a JSON text

The ways in which a text fails to be JSON. A text that ends early is told apart from one that is
malformed where it stands.
-/

namespace LoanClosing.Json

/-- The kind of a reading error: a value of the wrong shape, a malformed text, or one that ends
early. -/
inductive Category where
  | data
  | malformed
  | early
  deriving DecidableEq, Repr

/-- Why a text is not JSON. -/
inductive Fault where
  | endOfArray
  | endOfObject
  | endOfText
  | endOfValue
  | expectedColon
  | expectedCommaOrBracket
  | expectedCommaOrBrace
  | expectedWord
  | expectedValue
  | unknownEscape
  | unknownNumber
  | hugeNumber
  | unknownCharacter
  | controlCharacter
  | keyIsNoText
  | loneSurrogate
  | unpairedSurrogate
  | trailingComma
  | trailingText
  | tooDeep
  deriving DecidableEq, Repr

namespace Fault

/-- The kind of a fault. -/
def category : Fault → Category
  | .endOfArray | .endOfObject | .endOfText | .endOfValue => .early
  | _ => .malformed

/-- The text of a fault. -/
def message : Fault → String
  | .endOfArray => "EOF while parsing a list"
  | .endOfObject => "EOF while parsing an object"
  | .endOfText => "EOF while parsing a string"
  | .endOfValue => "EOF while parsing a value"
  | .expectedColon => "expected `:`"
  | .expectedCommaOrBracket => "expected `,` or `]`"
  | .expectedCommaOrBrace => "expected `,` or `\x7d`"
  | .expectedWord => "expected ident"
  | .expectedValue => "expected value"
  | .unknownEscape => "invalid escape"
  | .unknownNumber => "invalid number"
  | .hugeNumber => "number out of range"
  | .unknownCharacter => "invalid unicode code point"
  | .controlCharacter => "control character (\\u0000-\\u001F) found while parsing a string"
  | .keyIsNoText => "key must be a string"
  | .loneSurrogate => "lone leading surrogate in hex escape"
  | .unpairedSurrogate => "unexpected end of hex escape"
  | .trailingComma => "trailing comma"
  | .trailingText => "trailing characters"
  | .tooDeep => "recursion limit exceeded"

end Fault

end LoanClosing.Json
