import LoanClosing.Command.Option
import LoanClosing.Date
import LoanClosing.Settings.Basic

/-!
# Commands

What can be asked for on the command line: to serve, to evaluate rules, to process a template, or a
demonstration. Serving is what is asked for when nothing is.
-/

namespace LoanClosing

/-- Settings given on the command line, which win over variables. -/
structure ServeOptions where
  host : Option String := none
  port : Option Nat := none
  maxConcurrency : Option Nat := none
  deriving DecidableEq, Repr

/-- What rules are evaluated on. -/
structure EvaluateOptions where
  /-- The file of the loan type. -/
  loanType : String
  /-- The file of what is known about the loan. -/
  context : String
  trace : Bool
  deriving DecidableEq, Repr

/-- How a document is written out. -/
inductive OutputFormat where
  | json
  | text
  deriving DecidableEq, Repr

/-- What a template is processed with. -/
structure ProcessOptions where
  /-- The file of the template. -/
  template : String
  /-- The file of the loan data. -/
  model : String
  rootName : String
  format : OutputFormat
  /-- The file to write to. -/
  output : Option String
  deriving DecidableEq, Repr

/-- How the sample loan is changed for a demonstration. -/
structure DemoOptions where
  state : Option String := none
  occupancy : Option String := none
  closingDate : Option Date := none
  maxConcurrency : Nat := 2
  deriving DecidableEq, Repr

/-- A command. -/
inductive Command where
  | serve (options : ServeOptions)
  | evaluateRules (options : EvaluateOptions)
  | processTemplate (options : ProcessOptions)
  | demo (options : DemoOptions)
  deriving DecidableEq, Repr

/-! ## Values of options -/

/-- A port. -/
def readPortOption? (s : String) : Option Nat :=
  (Text.readInt? s).bind fun n ↦ if 0 ≤ n ∧ n < Int.pow 2 16 then some n.toNat else none

/-- A path, which is not empty. -/
def readPath? (s : String) : Option String := if s = "" then none else some s

/-- The format of a name. -/
def OutputFormat.ofName? : String → Option OutputFormat
  | "json" => some .json
  | "text" => some .text
  | _ => none

/-! ## Options of commands -/

/-- The options of serving. -/
def serveOptions : Options ServeOptions := [
  ("host", .value fun s draft ↦ some { draft with host := some s }),
  ("port", .value fun s draft ↦ (readPortOption? s).map fun n ↦ { draft with port := some n }),
  ("max-concurrency", .value fun s draft ↦
    (Settings.readCount? s).map fun n ↦ { draft with maxConcurrency := some n })]

/-- The options of an evaluation as far as they are read. -/
structure EvaluateDraft where
  loanType : Option String := none
  context : Option String := none
  trace : Bool := false

/-- The options of an evaluation. -/
def evaluateOptions : Options EvaluateDraft := [
  ("loan-type", .value fun s draft ↦ (readPath? s).map fun s ↦ { draft with loanType := some s }),
  ("context", .value fun s draft ↦ (readPath? s).map fun s ↦ { draft with context := some s }),
  ("trace", .flag fun draft ↦ { draft with trace := true })]

/-- The options of processing as far as they are read. -/
structure ProcessDraft where
  template : Option String := none
  model : Option String := none
  rootName : String := "Loan"
  format : OutputFormat := .json
  output : Option String := none

/-- The options of processing. -/
def processOptions : Options ProcessDraft := [
  ("template", .value fun s draft ↦ (readPath? s).map fun s ↦ { draft with template := some s }),
  ("model", .value fun s draft ↦ (readPath? s).map fun s ↦ { draft with model := some s }),
  ("root", .value fun s draft ↦ some { draft with rootName := s }),
  ("format", .value fun s draft ↦
    (OutputFormat.ofName? s).map fun format ↦ { draft with format := format }),
  ("output", .value fun s draft ↦ (readPath? s).map fun s ↦ { draft with output := some s })]

/-- The options of a demonstration. -/
def demoOptions : Options DemoOptions := [
  ("state", .value fun s draft ↦ some { draft with state := some s }),
  ("occupancy", .value fun s draft ↦ some { draft with occupancy := some s }),
  ("closing-date", .value fun s draft ↦
    (Date.read? s).map fun day ↦ { draft with closingDate := some day }),
  ("max-concurrency", .value fun s draft ↦
    (Settings.readCount? s).map fun n ↦ { draft with maxConcurrency := n })]

namespace Command

/-- Reads the words behind `rules evaluate`. -/
def ofEvaluate (words : List String) : Except Halt Command := do
  let draft ← evaluateOptions.read ["rules", "evaluate"] {} words
  let loanType ← needed "loan-type" draft.loanType
  let context ← needed "context" draft.context
  .ok (.evaluateRules ⟨loanType, context, draft.trace⟩)

/-- Reads the words behind `template process`. -/
def ofProcess (words : List String) : Except Halt Command := do
  let draft ← processOptions.read ["template", "process"] {} words
  let template ← needed "template" draft.template
  let model ← needed "model" draft.model
  .ok (.processTemplate ⟨template, model, draft.rootName, draft.format, draft.output⟩)

/-! ## Words -/

/-- Commands and the commands below them. -/
inductive Menu where
  | entry (name : String) (below : List Menu)

/-- The commands at the top. -/
def menu : List Menu := [
  .entry "serve" [],
  .entry "rules" [.entry "evaluate" [], .entry "help" []],
  .entry "template" [.entry "process" [], .entry "help" []],
  .entry "demo" [],
  .entry "help" []]

/-- The commands below a command of a name. -/
def below? (name : String) : List Menu → Option (List Menu)
  | [] => none
  | .entry n below :: entries => if n = name then some below else below? name entries

/-- Asks for help about a command, word by word; `command` is what the words before led to. -/
def helpAbout (command : List String) : List Menu → List String → Halt
  | _, [] => .help command
  | entries, word :: words =>
    match below? word entries with
    | some below => helpAbout (command ++ [word]) below words
    | none => .refused (.unknownCommand word)

/-- A first word behind a command that is no command below it: it may ask for help or, at the top,
for the version. -/
def notACommand (command : List String) (word : String) : Halt :=
  match Word.ofString word with
  | .long "help" none => .help command
  | .short ('h' :: _) => .help command
  | .long "version" none => if command = [] then .version else .refused (.unexpected word)
  | .short ('V' :: _) => if command = [] then .version else .refused (.unexpected word)
  | .plain => .refused (.unknownCommand word)
  | _ => .refused (.unexpected word)

/-- Reads the words behind a command with one command below it. -/
def ofOne (command name : String) (read : List String → Except Halt Command) :
    List String → Except Halt Command
  | [] => .error (.refused .missingCommand)
  | word :: words =>
    if word = name then read words
    else if word = "help" then .error (helpAbout [command] ((below? command menu).getD []) words)
    else .error (notACommand [command] word)

/-- Reads the words of a command line. -/
def ofWords : List String → Except Halt Command
  | [] | ["--"] => .ok (.serve {})
  | "serve" :: words => (serveOptions.read ["serve"] {} words).map .serve
  | "rules" :: words => ofOne "rules" "evaluate" ofEvaluate words
  | "template" :: words => ofOne "template" "process" ofProcess words
  | "demo" :: words => (demoOptions.read ["demo"] {} words).map .demo
  | "help" :: words => .error (helpAbout [] menu words)
  | word :: _ => .error (notACommand [] word)

end Command

end LoanClosing
