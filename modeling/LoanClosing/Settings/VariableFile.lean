import LoanClosing.Settings.Basic
import LoanClosing.Text.Letter

/-!
# Files of variables

A file of variables has one variable a line: a name, an equals sign, and a value, which may go on
over several lines while a quote is open or a line ends in a blank or behind a backslash. Values may
refer to variables before them. A variable that is set already keeps its value, and the first line
that cannot be read ends the reading.
-/

namespace LoanClosing.VariableFile

/-! ## Lines -/

/-- Lines with their line feeds. -/
def physicalLines : List Char → List (List Char)
  | [] => []
  | c :: cs =>
    if c = '\n' then [c] :: physicalLines cs
    else
      match physicalLines cs with
      | [] => [[c]]
      | line :: lines => (c :: line) :: lines

/-- Where the search for the end of a line stands. -/
inductive LineProgress where
  | complete
  | blank
  | escape
  | single
  | singleEscape
  | double
  | doubleEscape
  deriving DecidableEq, Repr

namespace LineProgress

/-- Takes a character outside quotes. -/
def outside (c : Char) (other : LineProgress) : LineProgress :=
  if c = '\x5c' then .escape
  else if c = '\x22' then .double
  else if c = '\x27' then .single
  else other

/-- Takes a character. -/
def step (progress : LineProgress) (c : Char) : LineProgress :=
  match progress with
  | .complete =>
    if Text.isBlank c && c != '\n' && c != '\r' then .blank else outside c .complete
  | .blank => outside c .complete
  | .escape => .complete
  | .double => if c = '\x5c' then .doubleEscape else if c = '\x22' then .complete else .double
  | .doubleEscape => .double
  | .single => if c = '\x5c' then .singleEscape else if c = '\x27' then .complete else .single
  | .singleEscape => .single

/-- Takes a line up to a comment, which starts at a number sign behind a blank. Tells what stands
before the comment, if there is one. -/
def scan (progress : LineProgress) : List Char → LineProgress × Option (List Char)
  | [] => (progress, none)
  | c :: cs =>
    if progress = .blank ∧ c = '#' then (.complete, some [])
    else
      let (ended, comment) := scan (progress.step c) cs
      (ended, comment.map (c :: ·))

end LineProgress

/-- A line without its line feed. -/
def withoutEnding (line : List Char) : List Char :=
  match line.reverse with
  | '\n' :: '\r' :: rest | '\n' :: rest => rest.reverse
  | _ => line

/-- Lines put together until they are complete, with comments left out; `none` where the file ends
too early. Given are the lines before that are not complete yet. -/
def logicalLines (progress : LineProgress) (before : List Char) :
    List (List Char) → List (Option (List Char))
  | [] => if progress = .complete then [] else [none]
  | line :: lines =>
    if (Text.trimStart (before ++ line)).head? = some '#' then
      some [] :: logicalLines .complete [] lines
    else
      match progress.scan line with
      | (_, some front) => some (before ++ front) :: logicalLines .complete [] lines
      | (.complete, none) =>
        some (withoutEnding (before ++ line)) :: logicalLines .complete [] lines
      | (ended, none) => logicalLines ended (before ++ line) lines

/-! ## Values -/

/-- Where the reading of a value stands. -/
inductive ValueProgress where
  | bare
  | double
  | single
  /-- After a backslash, in double quotes or outside of quotes. -/
  | escape (inside : Bool)
  /-- In the name of a variable, in double quotes or outside of quotes. -/
  | reference (inside : Bool)
  /-- In the name of a variable between braces. -/
  | braced (inside : Bool)
  /-- After a blank, where only a comment may follow. -/
  | ended
  | comment
  deriving DecidableEq, Repr

/-- What a value has been read to be. -/
structure ValueDraft where
  progress : ValueProgress
  /-- The name of the variable that is being read. -/
  name : List Char
  output : List Char
  deriving DecidableEq, Repr

namespace ValueDraft

/-- Goes on elsewhere. -/
def goTo (draft : ValueDraft) (progress : ValueProgress) : ValueDraft :=
  { draft with progress := progress }

/-- Puts a character out. -/
def put (draft : ValueDraft) (c : Char) : ValueDraft := { draft with output := draft.output ++ [c] }

/-- Puts the value of the variable out whose name has been read; one that is not set has none. -/
def refer (vars : Variables) (draft : ValueDraft) : ValueDraft :=
  let value := (Table.find? (String.ofList draft.name) vars).getD ""
  { draft with name := [], output := draft.output ++ value.toList }

/-- In double quotes, or outside of quotes. -/
def surroundings (inside : Bool) : ValueProgress := if inside then .double else .bare

/-- The character that a backslash and a character stand for. -/
def escaped? (c : Char) : Option Char :=
  if c = 'n' then some '\n'
  else if c = '\x5c' ∨ c = '\x27' ∨ c = '\x22' ∨ c = '$' ∨ c = ' ' then some c
  else none

/-- Takes a character. A character that ends the name of a variable stands for itself. -/
def step (vars : Variables) (draft : ValueDraft) (c : Char) : Option ValueDraft :=
  match draft.progress with
  | .comment => some draft
  | .ended =>
    if c = ' ' ∨ c = '\t' then some draft
    else if c = '#' then some (draft.goTo .comment)
    else none
  | .escape inside => (escaped? c).map fun c ↦ (draft.put c).goTo (surroundings inside)
  | .single => some (if c = '\x27' then draft.goTo .bare else draft.put c)
  | .reference inside =>
    if Text.isLetterOrNumber c then some { draft with name := draft.name ++ [c] }
    else if c = '\x7b' ∧ draft.name = [] then some (draft.goTo (.braced inside))
    else if c = '$' then some ((draft.refer vars).goTo (.reference inside))
    else some (((draft.refer vars).put c).goTo (surroundings inside))
  | .braced inside =>
    if c = '\x7d' then some ((draft.refer vars).goTo (surroundings inside))
    else some { draft with name := draft.name ++ [c] }
  | .double =>
    if c = '$' then some (draft.goTo (.reference true))
    else if c = '\x22' then some (draft.goTo .bare)
    else if c = '\x5c' then some (draft.goTo (.escape true))
    else some (draft.put c)
  | .bare =>
    if c = '$' then some (draft.goTo (.reference false))
    else if c = '\x27' then some (draft.goTo .single)
    else if c = '\x22' then some (draft.goTo .double)
    else if c = '\x5c' then some (draft.goTo (.escape false))
    else if c = ' ' ∨ c = '\t' then some (draft.goTo .ended)
    else some (draft.put c)

/-- The value after the last character, unless a quote or a brace is open. -/
def finish? (vars : Variables) (draft : ValueDraft) : Option (List Char) :=
  match draft.progress with
  | .single | .double | .escape true | .reference true | .braced _ => none
  | .bare | .escape false | .reference false | .ended | .comment =>
    some (draft.refer vars).output

end ValueDraft

/-- Reads a value. -/
def readValue (vars : Variables) (cs : List Char) : Option (List Char) :=
  (cs.foldlM (ValueDraft.step vars) ⟨.bare, [], []⟩).bind (·.finish? vars)

/-! ## Variables -/

/-- Reads the name of a variable at the front. -/
def readName (cs : List Char) : Option (List Char × List Char) :=
  let isPart (c : Char) : Bool := Text.isIdentifierPart c || c == '.'
  match cs with
  | [] => none
  | c :: _ =>
    if Text.isIdentifierStart c then some (cs.takeWhile isPart, cs.dropWhile isPart) else none

/-- Passes over an equals sign, with blanks around it or not. -/
def readEquals (cs : List Char) : Option (List Char) :=
  match Text.trimStart cs with
  | '=' :: rest => some (Text.trimStart rest)
  | _ => none

/-- Reads a name and an equals sign; the word `export` may stand in front. -/
def readHead (cs : List Char) : Option (List Char × List Char) := do
  let (name, rest) ← readName cs
  match readEquals rest with
  | some rest => some (name, rest)
  | none =>
    if name = "export".toList then do
      let (name, rest) ← readName (Text.trimStart rest)
      let rest ← readEquals rest
      some (name, rest)
    else none

/-- What a line says. -/
inductive Line where
  | blank
  | unreadable
  | assignment (name value : String)
  deriving DecidableEq, Repr

/-- Reads a line. -/
def Line.read (vars : Variables) (line : List Char) : Line :=
  let cs := Text.trimChars line
  if cs.isEmpty || cs.head? == some '#' then .blank
  else
    match readHead cs with
    | none => .unreadable
    | some (name, rest) =>
      let value := if rest.head? == some '#' then some [] else readValue vars rest
      match value with
      | none => .unreadable
      | some value => .assignment (String.ofList name) (String.ofList value)

/-- The names that a file mentions, whatever they stand for. -/
def names (file : String) : List String :=
  let isPart (c : Char) : Bool := Text.isIdentifierPart c || c == '.'
  let spaced := file.toList.map fun c ↦ if isPart c then c else ' '
  (Text.words spaced).map String.ofList

/-- Sets the variables of lines. -/
def setAll (vars : Variables) : List (Option (List Char)) → Variables
  | [] | none :: _ => vars
  | some line :: lines =>
    match Line.read vars line with
    | .unreadable => vars
    | .blank => setAll vars lines
    | .assignment name value =>
      if (Table.find? name vars).isSome then setAll vars lines
      else setAll (Table.put name value vars) lines

/-- Sets the variables of a file. -/
def set (vars : Variables) (file : String) : Variables :=
  let cs := match file.toList with
    | '\uFEFF' :: rest => rest
    | cs => cs
  setAll vars (logicalLines .complete [] (physicalLines cs))

end LoanClosing.VariableFile
