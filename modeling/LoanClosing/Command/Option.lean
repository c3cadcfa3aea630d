import LoanClosing.Table

/-!
# Options on a command line

Options are written `--name value` or `--name=value`, flags `--name`, each at most once. A word that
starts with a hyphen is no value, unless it is a hyphen alone or stands behind an equals sign. Words
are read from left to right, and the first that asks for help or cannot be understood ends it.
-/

namespace LoanClosing

/-- Why words on a command line are refused. -/
inductive Refusal where
  | unknownCommand (word : String)
  | missingCommand
  | unexpected (word : String)
  | missingValue (name : String)
  | invalidValue (name value : String)
  | repeated (name : String)
  | missingOption (name : String)
  deriving DecidableEq, Repr

/-- Why no command comes out of a command line. -/
inductive Halt where
  /-- Help is asked for about the command of these words. -/
  | help (command : List String)
  | version
  | refused (refusal : Refusal)
  deriving DecidableEq, Repr

/-- What a word may be. -/
inductive Word where
  /-- Two hyphens, which end the options. -/
  | escape
  | long (name : String) (attached : Option String)
  /-- A hyphen and letters. -/
  | short (letters : List Char)
  | plain
  deriving DecidableEq, Repr

namespace Word

/-- The name and the value of an option behind two hyphens. -/
def ofOption (cs : List Char) : Word :=
  let name := cs.takeWhile (· != '=')
  match cs.drop name.length with
  | [] => .long (String.ofList name) none
  | _ :: value => .long (String.ofList name) (some (String.ofList value))

/-- What a word is. -/
def ofString (s : String) : Word :=
  match s.toList with
  | ['-', '-'] => .escape
  | '-' :: '-' :: cs => .ofOption cs
  | ['-'] => .plain
  | '-' :: letters => .short letters
  | _ => .plain

end Word

/-- What an option does to the draft of a command. -/
inductive OptionAction (σ : Type) where
  | flag (set : σ → σ)
  /-- Takes a value; refuses some. -/
  | value (set : String → σ → Option σ)

/-- The options of a command. -/
abbrev Options (σ : Type) := List (String × OptionAction σ)

namespace Options

variable {σ : Type}

/-- Gives an option a value. -/
def give (name value : String) (set : String → σ → Option σ) (given : List String) (draft : σ) :
    Except Halt σ :=
  match set value draft with
  | none => .error (.refused (.invalidValue name value))
  | some draft => if given.contains name then .error (.refused (.repeated name)) else .ok draft

/-- Reads the words behind a command, given the names of the options before them. -/
def readFrom (options : Options σ) (command given : List String) (draft : σ) :
    List String → Except Halt σ
  | [] => .ok draft
  | word :: words =>
    match Word.ofString word with
    | .plain => .error (.refused (.unexpected word))
    | .escape =>
      match words with
      | [] => .ok draft
      | word :: _ => .error (.refused (.unexpected word))
    | .short letters =>
      if letters.head? = some 'h' then .error (.help command)
      else .error (.refused (.unexpected word))
    | .long name attached =>
      match Table.find? name options, attached, words with
      | none, none, _ =>
        if name = "help" then .error (.help command) else .error (.refused (.unexpected word))
      | none, some _, _ => .error (.refused (.unexpected word))
      | some (.flag set), none, words =>
        if given.contains name then .error (.refused (.repeated name))
        else readFrom options command (name :: given) (set draft) words
      | some (.flag _), some _, _ => .error (.refused (.unexpected word))
      | some (.value set), some value, words => do
        let draft ← give name value set given draft
        readFrom options command (name :: given) draft words
      | some (.value set), none, value :: words =>
        match Word.ofString value with
        | .plain => do
          let draft ← give name value set given draft
          readFrom options command (name :: given) draft words
        | _ => .error (.refused (.missingValue name))
      | some (.value _), none, [] => .error (.refused (.missingValue name))

/-- Reads the words behind a command. -/
def read (options : Options σ) (command : List String) (draft : σ) (words : List String) :
    Except Halt σ :=
  readFrom options command [] draft words

end Options

/-- An option that has to be given. -/
def needed {α : Type} (name : String) : Option α → Except Halt α
  | some a => .ok a
  | none => .error (.refused (.missingOption name))

end LoanClosing
