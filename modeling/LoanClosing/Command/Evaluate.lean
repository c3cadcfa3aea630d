import LoanClosing.Command.Basic
import LoanClosing.Command.Report
import LoanClosing.Rules.Selection

/-!
# Evaluating rules

Lists the documents that a loan type selects, and the trace behind an empty line if it is asked for.
-/

namespace LoanClosing

/-- The name that a loan type is shown by. -/
def LoanType.title (loanType : LoanType) : String :=
  if loanType.name = "" then "unnamed loan type" else loanType.name

/-- A trace entry on a line. -/
def TraceEntry.line (entry : TraceEntry) : String :=
  match entry.rule with
  | some rule => "  [" ++ rule ++ "] " ++ entry.message
  | none => "  " ++ entry.message

/-- The lines about a selection. -/
def Selection.lines (title : String) (trace : Bool) (selection : Selection) : List String :=
  ["Documents for " ++ title] ++ selection.documentIds.map ("- " ++ ·) ++
    (if trace then ["", "Trace"] ++ selection.trace.map TraceEntry.line else [])

/-- Evaluates the rules of a loan type in a context. -/
def EvaluateOptions.run (options : EvaluateOptions) (surroundings : Surroundings) :
    Except Failure CommandReport := do
  let loanType ← surroundings.readData LoanType.decode options.loanType
  let context ← surroundings.readData Json.Decode.json options.context
  let selection := loanType.select options.trace (.ofJson context)
  .ok (.ofLines (selection.lines loanType.title options.trace))

end LoanClosing
