import LoanClosing.Text.Ascii
import LoanClosing.Text.Blank
import LoanClosing.Text.Letter

/-!
# Search patterns

Whether a text can be searched for as a pattern. A pattern is made of characters, classes in square
brackets, groups, alternatives, repetitions and assertions. It is read character by character; one
that has a word boundary is well-formed, but cannot be searched for unless the boundary is one of
ASCII words.

The patterns here come without closing braces, so whatever begins with an opening brace outside a
class is unfinished.
-/

namespace LoanClosing.Text

/-- Why a text cannot be searched for. -/
inductive PatternProblem where
  | malformed
  | wordBoundary
  deriving DecidableEq, Repr

namespace Pattern

/-- The flags that matter here. -/
structure Modes where
  /-- Classes and boundaries are those of all characters, not of ASCII. -/
  unicode : Bool
  /-- Blanks and comments may stand between items. -/
  extended : Bool
  deriving DecidableEq, Repr

/-- Where an item stands: outside classes, or in a class. The depth counts the classes around that
class; an item in a class may end a range. -/
inductive Home where
  | outside
  | inside (depth : Nat) (start : Option Char)
  deriving DecidableEq, Repr

/-- Where the reading of a pattern stands. -/
inductive Place where
  /-- Before an item; there may be something before it to be repeated. -/
  | next (operand : Bool)
  /-- After a mark of repetition. -/
  | repeated
  /-- After a backslash. -/
  | escape (home : Home)
  /-- Before the letter of a property. -/
  | property (home : Home)
  /-- Before hexadecimal digits, of which some are left. -/
  | hex (home : Home) (byte : Bool) (left value : Nat)
  /-- After an opening parenthesis. -/
  | group
  /-- After an opening parenthesis and a question mark. -/
  | groupMark
  /-- After a `P` where flags could stand. -/
  | nameMark
  /-- In the name of a group. -/
  | name (chars : List Char)
  /-- Among flags; a hyphen has come, or has come last, and the flags give these modes. -/
  | flags (seen : List Char) (negated dangling : Bool) (modes : Modes)
  /-- In front of a class, where a caret or hyphens may stand. -/
  | classStart (depth : Nat) (mayNegate dashed : Bool)
  /-- Before an item of a class. -/
  | classNext (depth : Nat)
  /-- After an item of a class, a character if it may start a range. -/
  | classAfter (depth : Nat) (literal : Option Char)
  /-- After an item of a class and a hyphen. -/
  | classDash (depth : Nat) (literal : Option Char)
  /-- In a comment. -/
  | comment (back : Place)
  /-- Before characters that have been looked at. -/
  | passing (count : Nat) (back : Place)
  deriving DecidableEq, Repr

/-- What has been read. -/
structure State where
  place : Place
  modes : Modes
  /-- The modes outside of each open group, the innermost first. -/
  outer : List Modes
  /-- The names of groups. -/
  names : List (List Char)
  /-- Whether there is a boundary of words of any letters. -/
  boundary : Bool
  deriving DecidableEq, Repr

namespace State

/-- Goes on elsewhere. -/
def goTo (state : State) (place : Place) : State := { state with place := place }

/-! ## Items -/

/-- Ends an item that is one character. The ends of a range are in order. -/
def literal (state : State) (home : Home) (c : Char) : Option State :=
  match home with
  | .outside => some (state.goTo (.next true))
  | .inside depth start =>
    if !state.modes.unicode && 128 ≤ c.toNat then none
    else
      match start with
      | none => some (state.goTo (.classAfter depth (some c)))
      | some first => if first ≤ c then some (state.goTo (.classNext depth)) else none

/-- Ends an item that is a class of characters, which ends no range. -/
def classItem (state : State) : Home → Option State
  | .outside => some (state.goTo (.next true))
  | .inside depth none => some (state.goTo (.classAfter depth none))
  | .inside _ (some _) => none

/-- Ends an assertion, which stands in no class. -/
def assertion (state : State) (boundary : Bool) : Home → Option State
  | .outside => some { state with
      place := .next true
      boundary := state.boundary || (boundary && state.modes.unicode) }
  | .inside .. => none

/-- The characters that letters after a backslash stand for. -/
def controls : List (Char × Char) :=
  [('a', '\x07'), ('f', '\x0c'), ('n', '\n'), ('r', '\r'), ('t', '\t'), ('v', '\x0b')]

/-- Takes the character after a backslash. One that is no letter and no digit stands for itself. -/
def escape (state : State) (home : Home) (c : Char) : Option State :=
  if c = 'x' then some (state.goTo (.hex home true 2 0))
  else if c = 'u' then some (state.goTo (.hex home false 4 0))
  else if c = 'U' then some (state.goTo (.hex home false 8 0))
  else if c = 'p' ∨ c = 'P' then
    if state.modes.unicode then some (state.goTo (.property home)) else none
  else if c = 'd' ∨ c = 's' ∨ c = 'w' then state.classItem home
  else if c = 'D' ∨ c = 'S' ∨ c = 'W' then
    if state.modes.unicode then state.classItem home else none
  else if c = 'A' ∨ c = 'z' then state.assertion false home
  else if c = 'b' ∨ c = 'B' ∨ c = '<' ∨ c = '>' then state.assertion true home
  else
    match controls.find? (·.1 == c) with
    | some (_, control) => state.literal home control
    | none => if c.toNat < 128 && !c.isAlphanum then state.literal home c else none

/-- Takes a hexadecimal digit; the last one makes a character. -/
def hex (state : State) (home : Home) (byte : Bool) (left value : Nat) (c : Char) :
    Option State := do
  let value := 16 * value + (← hexValue? c)
  if 1 < left then some (state.goTo (.hex home byte (left - 1) value))
  else if byte && !state.modes.unicode && 128 ≤ value then none
  else if value < 0xD800 ∨ (0xDFFF < value ∧ value < 0x110000) then
    state.literal home (Char.ofNat value)
  else none

/-- The letters of properties: letters, marks, numbers, punctuation, symbols, separators and what is
none of them. -/
def propertyLetters : List Char := "CLMNPSZ".toList

/-! ## Groups -/

/-- Opens a group. -/
def openGroup (state : State) (inner : Modes) : State :=
  { state with place := .next false, modes := inner, outer := state.modes :: state.outer }

/-- Closes a group. -/
def closeGroup (state : State) : Option State :=
  match state.outer with
  | [] => none
  | modes :: outer => some { state with place := .next true, modes := modes, outer := outer }

/-- Takes a character of the name of a group. No name comes twice. -/
def name (state : State) (chars : List Char) (c : Char) : Option State :=
  if c = '>' then
    if chars.isEmpty || state.names.contains chars then none
    else some ({ state with names := chars :: state.names }.openGroup state.modes)
  else if c == '_' || (isLetterOrNumber c && !(chars.isEmpty && c.isDigit)) ||
      (!chars.isEmpty && (c == '.' || c == '[' || c == ']')) then
    some (state.goTo (.name (chars ++ [c])))
  else none

/-- Takes a character among flags. Each flag and the hyphen come at most once, and a hyphen does not
come last. -/
def flags (state : State) (seen : List Char) (negated dangling : Bool) (modes : Modes) (c : Char) :
    Option State :=
  if c = ':' then if dangling then none else some (state.openGroup modes)
  else if c = ')' then
    if dangling || (seen.isEmpty && !negated) then none
    else some { state with place := .next false, modes := modes }
  else if c = '-' then if negated then none else some (state.goTo (.flags seen true true modes))
  else if "imsURux".toList.contains c && !seen.contains c then
    let modes := if c = 'u' then { modes with unicode := !negated }
      else if c = 'x' then { modes with extended := !negated }
      else modes
    some (state.goTo (.flags (c :: seen) negated false modes))
  else none

/-! ## Classes -/

/-- The named classes of ASCII characters. -/
def classNames : List String :=
  ["alnum", "alpha", "ascii", "blank", "cntrl", "digit", "graph", "lower", "print", "punct",
    "space", "upper", "word", "xdigit"]

/-- How many characters of a named class stand behind its opening bracket. -/
def namedClass? (rest : List Char) : Option Nat :=
  match rest with
  | ':' :: rest =>
    let body := match rest with
      | '^' :: body => body
      | body => body
    let name := body.takeWhile (· != ':')
    match body.drop name.length with
    | ':' :: ']' :: _ =>
      let count := 3 + (rest.length - body.length) + name.length
      if classNames.contains (String.ofList name) then some count else none
    | _ => none
  | _ => none

/-- Takes a character before an item of a class; `rest` is what follows it. -/
def inClass (state : State) (depth : Nat) (c : Char) (rest : List Char) : Option State :=
  if c = '[' then
    match namedClass? rest with
    | some count => some (state.goTo (.passing count (.classNext depth)))
    | none => some (state.goTo (.classStart (depth + 1) true false))
  else if c = ']' then
    match depth with
    | 0 => some (state.goTo (.next true))
    | depth + 1 => some (state.goTo (.classNext depth))
  else if (c == '&' || c == '-' || c == '~') && rest.head? == some c then
    some (state.goTo (.passing 1 (.classNext depth)))
  else if c = '\x5c' then some (state.goTo (.escape (.inside depth none)))
  else state.literal (.inside depth none) c

/-- Takes a character in front of a class. A bracket that comes first does not close it. -/
def startClass (state : State) (depth : Nat) (mayNegate dashed : Bool) (c : Char)
    (rest : List Char) : Option State :=
  if mayNegate && c == '^' then
    if state.modes.unicode then some (state.goTo (.classStart depth false false)) else none
  else if c = '-' then some (state.goTo (.classStart depth false true))
  else if c == ']' && !dashed then some (state.goTo (.classNext depth))
  else state.inClass depth c rest

/-- Takes the character after a hyphen behind an item: the hyphen is an item in front of the closing
bracket, half an operator in front of another hyphen, and else makes a range. -/
def afterDash (state : State) (depth : Nat) (first : Option Char) (c : Char) (rest : List Char) :
    Option State :=
  if c = ']' then state.inClass depth c rest
  else if c = '-' then some (state.goTo (.classNext depth))
  else
    match first with
    | none => none
    | some first =>
      if c = '\x5c' then some (state.goTo (.escape (.inside depth (some first))))
      else state.literal (.inside depth (some first)) c

/-! ## Reading -/

/-- Takes a character before an item outside classes. -/
def outside (state : State) (operand : Bool) (c : Char) : Option State :=
  match c with
  | '(' => some (state.goTo .group)
  | ')' => state.closeGroup
  | '|' => some (state.goTo (.next false))
  | '[' => some (state.goTo (.classStart 0 true false))
  | '?' | '*' | '+' => if operand then some (state.goTo .repeated) else none
  | '\x7b' => none
  | '\x5c' => some (state.goTo (.escape .outside))
  | '.' => if state.modes.unicode then some (state.goTo (.next true)) else none
  | _ => some (state.goTo (.next true))

/-- Takes a character that counts; `rest` is what follows it. -/
def take (state : State) (c : Char) (rest : List Char) : Option State :=
  match state.place with
  | .next operand => state.outside operand c
  | .repeated => if c = '?' then some (state.goTo (.next true)) else state.outside true c
  | .escape home => state.escape home c
  | .property home => if propertyLetters.contains c.toUpper then state.classItem home else none
  | .hex home byte left value => state.hex home byte left value c
  | .group =>
    if c = '?' then some (state.goTo .groupMark)
    else (state.openGroup state.modes).outside false c
  | .groupMark =>
    if c = '<' then some (state.goTo (.name []))
    else if c = 'P' then some (state.goTo .nameMark)
    else state.flags [] false false state.modes c
  | .nameMark => if c = '<' then some (state.goTo (.name [])) else none
  | .name chars => state.name chars c
  | .flags seen negated dangling modes => state.flags seen negated dangling modes c
  | .classStart depth mayNegate dashed => state.startClass depth mayNegate dashed c rest
  | .classNext depth => state.inClass depth c rest
  | .classAfter depth literal =>
    if c = '-' then some (state.goTo (.classDash depth literal)) else state.inClass depth c rest
  | .classDash depth literal => state.afterDash depth literal c rest
  | .comment back => some (state.goTo (if c = '\n' then back else .comment back))
  | .passing count back => some (state.goTo (if 1 < count then .passing (count - 1) back else back))

/-- Where the reading goes on behind blanks and comments, if they may stand there. -/
def behindBlanks? : Place → Option Place
  | .repeated => some (.next true)
  | .escape _ | .groupMark | .nameMark | .name _ | .flags .. | .comment _ | .passing .. => none
  | place => some place

/-- Takes a character; `rest` is what follows it. -/
def step (state : State) (c : Char) (rest : List Char) : Option State :=
  match if state.modes.extended then behindBlanks? state.place else none with
  | none => state.take c rest
  | some back =>
    if isBlank c then some (state.goTo back)
    else if c = '#' then some (state.goTo (.comment back))
    else state.take c rest

/-- Takes characters. -/
def steps (state : State) : List Char → Option State
  | [] => some state
  | c :: rest => (state.step c rest).bind (·.steps rest)

/-- Whether a pattern may end here. -/
def isComplete (state : State) : Bool :=
  state.outer.isEmpty &&
    match state.place with
    | .next _ | .repeated | .comment (.next _) => true
    | _ => false

/-- Before the first character. -/
def start : State := ⟨.next false, ⟨true, false⟩, [], [], false⟩

end State

/-- Why a text cannot be searched for, if it cannot. -/
def problem? (pattern : String) : Option PatternProblem :=
  match State.start.steps pattern.toList with
  | none => some .malformed
  | some state =>
    if !state.isComplete then some .malformed
    else if state.boundary then some .wordBoundary
    else none

end Pattern

end LoanClosing.Text
