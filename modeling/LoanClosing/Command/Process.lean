import LoanClosing.Command.Basic
import LoanClosing.Command.Report
import LoanClosing.Document.Processing

/-!
# Processing a template

Writes the processed document out, and warns of containers that were stopped or have markers or
placeholders left.
-/

namespace LoanClosing

/-- A truth value in words. -/
def truthText (flag : Bool) : String := if flag then "true" else "false"

namespace ContainerReport

/-- Whether a container needs a warning. -/
def needsWarning (report : ContainerReport) : Bool :=
  report.aborted || 0 < report.markersRemaining || 0 < report.unqualified

/-- The warning of a container. -/
def warning (report : ContainerReport) : String :=
  "warning: container '" ++ report.name ++ "' aborted=" ++ truthText report.aborted ++
    " markers_left=" ++ toString report.markersRemaining ++
    " unresolved=" ++ toString report.unresolved ++
    " unqualified=" ++ toString report.unqualified

end ContainerReport

/-- A document in a format. -/
def OutputFormat.write (format : OutputFormat) (document : Document) : String :=
  match format with
  | .json => document.prettyText
  | .text => document.plainText

/-- Processes a template with the data of a loan. -/
def ProcessOptions.run (options : ProcessOptions) (surroundings : Surroundings) :
    Except Failure CommandReport := do
  let template ← surroundings.readData Document.decode options.template
  let model ← surroundings.readData Value.decode options.model
  let processor := { Processor.default with rootName := Text.trim options.rootName }
  let (document, report) := processor.processDocument template model
  let text := options.format.write document
  let warnings :=
    (report.containers.filter ContainerReport.needsWarning).map ContainerReport.warning
  .ok {
    printed := if options.output.isSome then "" else linesText [text]
    warnings := linesText warnings
    output := options.output.map (·, text) }

end LoanClosing
