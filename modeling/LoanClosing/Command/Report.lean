import LoanClosing.Failure

/-!
# Reports of commands

What a command has to say when it is through: what it prints, what it warns of, and what it writes
to a file. Writing the file may still fail, and then the failure is all that is told.
-/

namespace LoanClosing

/-- What a command finds around it. -/
structure Surroundings where
  vars : Variables
  /-- The text of a file, or why it cannot be read. -/
  fileText : String → Except String String
  /-- How long merging took, in milliseconds. -/
  elapsed : String

/-- What a command has to say. -/
structure CommandReport where
  printed : String
  warnings : String
  /-- A file and what to write to it. -/
  output : Option (String × String)
  deriving DecidableEq, Repr

/-- How a program ends. -/
structure Ending where
  exitCode : Nat
  stdout : String
  stderr : String
  deriving DecidableEq, Repr

/-- Texts on a line each. -/
def linesText (lines : List String) : String := String.join (lines.map (· ++ "\n"))

namespace CommandReport

/-- A report that is printed only. -/
def ofLines (lines : List String) : CommandReport := ⟨linesText lines, "", none⟩

end CommandReport

namespace Ending

/-- The end after a failure. -/
def ofFailure (failure : Failure) : Ending :=
  ⟨1, "", linesText ["application error: " ++ failure.message]⟩

/-- The end after a report, given why its file could not be written if it could not. -/
def ofReport (report : CommandReport) (problem : Option String) : Ending :=
  match problem with
  | some reason => ofFailure (.io reason)
  | none => ⟨0, report.printed, report.warnings⟩

end Ending

namespace Surroundings

/-- Reads data from a file. -/
def readData {α : Type} (surroundings : Surroundings) (decode : Json.Decoder α) (path : String) :
    Except Failure α := do
  let text ← (surroundings.fileText path).mapError .io
  (Json.decodeString decode text).mapError .input

end Surroundings

end LoanClosing
