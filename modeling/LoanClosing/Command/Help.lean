import LoanClosing.Text.Ascii

/-!
# Help

What the program tells about its commands and their options. A page says what a command is for and
how it is written, and has a row for every command below it and for every option. Rows are aligned,
and no line is longer than a hundred characters if its words allow it.
-/

namespace LoanClosing

/-- What is told about a command. -/
structure HelpPage where
  about : String
  /-- What follows the name of the program. -/
  usage : String
  commands : List (String × String) := []
  arguments : List (String × String) := []
  options : List (String × String) := []
  deriving DecidableEq, Repr

namespace HelpPage

/-- The name of the program. -/
def program : String := "closing-docs-api"

/-- The longest line. -/
def maxWidth : Nat := 100

/-! ## Lines -/

/-- Puts words into lines of at most the given width; `line` is the line before them. -/
def fill (width : Nat) (line : String) : List String → List String
  | [] => [line]
  | word :: words =>
    if line.length + 1 + word.length ≤ width then fill width (line ++ " " ++ word) words
    else line :: fill width word words

/-- The lines of a text of at most the given width. -/
def wrapped (width : Nat) (text : String) : List String :=
  match (Text.splitAt ' ' text.toList).map String.ofList with
  | [] => []
  | word :: words => fill width word words

/-- Spaces. -/
def spaces (n : Nat) : String := String.ofList (List.replicate n ' ')

/-- The lines of a row, whose second part starts at a column. -/
def rowLines (column : Nat) (row : String × String) : List String :=
  match wrapped (maxWidth - column) row.2 with
  | [] => [row.1]
  | line :: lines =>
    (row.1 ++ spaces (column - row.1.length) ++ line) :: lines.map (spaces column ++ ·)

/-- The lines of a row whose second part stands below the first. -/
def stackedLines (row : String × String) : List String :=
  row.1 :: (wrapped (maxWidth - 10) row.2).map (spaces 10 ++ ·)

/-- The lines of rows under a heading, if there are any. The second parts stand below the first when
they would start far to the right and one would not fit there. -/
def sectionLines (heading : String) (rows : List (String × String)) : List String :=
  if rows.isEmpty then []
  else
    let column := (rows.map fun row ↦ row.1.length).foldl max 0 + 2
    let stacked := 40 < column && rows.any fun row ↦ maxWidth - column < row.2.length
    ["", heading ++ ":"] ++ rows.flatMap (if stacked then stackedLines else rowLines column)

/-- The lines of a page. -/
def lines (page : HelpPage) : List String :=
  [page.about, "", "Usage: " ++ program ++ page.usage] ++ sectionLines "Commands" page.commands ++
    sectionLines "Arguments" page.arguments ++ sectionLines "Options" page.options

/-! ## Pages -/

/-- An option with a word in front of it. -/
def option (name about : String) : String × String := ("      --" ++ name, about)

/-- The option that asks for help. -/
def helpOption : String × String := ("  -h, --help", "Print help")

/-- A command below another. -/
def command (name about : String) : String × String := ("  " ++ name, about)

/-- The command that asks for help. -/
def helpCommand : String × String :=
  command "help" "Print this message or the help of the given subcommand(s)"

/-- The program as a whole. -/
def top : HelpPage where
  about := "Select and merge loan closing documents from the command line"
  usage := " [COMMAND]"
  commands := [
    command "serve" "Start the HTTP service and merge orchestrator (default command)",
    command "rules" "Work with loan type output rules",
    command "template" "Work with block/leaf templates",
    command "demo" "Run a sample loan through selection, concurrent merging and aggregation",
    helpCommand]
  options := [helpOption, ("  -V, --version", "Print version")]

/-- Serving. -/
def serve : HelpPage where
  about := "Start the HTTP service and merge orchestrator (default command)"
  usage := " serve [OPTIONS]"
  options := [
    option "host <HOST>" "Override the configured host for the HTTP server",
    option "port <PORT>" "Override the configured port for the HTTP server",
    option "max-concurrency <MAX_CONCURRENCY>"
      "Override the configured number of concurrent merges",
    helpOption]

/-- What can be done with rules. -/
def rules : HelpPage where
  about := "Work with loan type output rules"
  usage := " rules <COMMAND>"
  commands := [
    command "evaluate" "Print the documents a loan type selects for a context",
    helpCommand]
  options := [helpOption]

/-- Evaluating rules. -/
def evaluate : HelpPage where
  about := "Print the documents a loan type selects for a context"
  usage := " rules evaluate [OPTIONS] --loan-type <LOAN_TYPE> --context <CONTEXT>"
  options := [
    option "loan-type <LOAN_TYPE>" "JSON file holding the loan type definition",
    option "context <CONTEXT>" "JSON file holding a flat object of context values",
    option "trace" "Print the evaluation trace",
    helpOption]

/-- What can be done with templates. -/
def template : HelpPage where
  about := "Work with block/leaf templates"
  usage := " template <COMMAND>"
  commands := [command "process" "Merge a data model into a template document", helpCommand]
  options := [helpOption]

/-- Processing a template. -/
def process : HelpPage where
  about := "Merge a data model into a template document"
  usage := " template process [OPTIONS] --template <TEMPLATE> --model <MODEL>"
  options := [
    option "template <TEMPLATE>" "JSON file holding the template document",
    option "model <MODEL>" "JSON file holding the data model",
    option "root <ROOT>" "Name placeholders and conditions use for the model [default: Loan]",
    option "format <FORMAT>"
      ("Output format for the merged document [default: json] " ++
        "[possible values: json, text]"),
    option "output <OUTPUT>" "Write the merged document here instead of stdout",
    helpOption]

/-- The demonstration. -/
def demo : HelpPage where
  about := "Run a sample loan through selection, concurrent merging and aggregation"
  usage := " demo [OPTIONS]"
  options := [
    option "state <STATE>" "Property state used for document selection (defaults to CA)",
    option "occupancy <OCCUPANCY>" "Occupancy: primary, second-home or investment",
    option "closing-date <CLOSING_DATE>"
      "Closing date (YYYY-MM-DD) merged into the documents",
    option "max-concurrency <MAX_CONCURRENCY>"
      "Number of merges allowed to run at once [default: 2]",
    helpOption]

/-- Help itself, below a command. -/
def help (parents : List String) : HelpPage where
  about := "Print this message or the help of the given subcommand(s)"
  usage := String.join (parents.map (" " ++ ·)) ++ " help [COMMAND]..."
  arguments := [("  [COMMAND]...", "Print help for the subcommand(s)")]

/-- The page of a command. -/
def ofCommand : List String → HelpPage
  | ["serve"] => serve
  | ["rules"] => rules
  | ["rules", "evaluate"] => evaluate
  | ["template"] => template
  | ["template", "process"] => process
  | ["demo"] => demo
  | words => if words.getLast? = some "help" then help words.dropLast else top

end HelpPage

end LoanClosing
