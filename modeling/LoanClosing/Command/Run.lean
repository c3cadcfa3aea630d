import LoanClosing.Command.Demo
import LoanClosing.Command.Help
import LoanClosing.Command.Process
import LoanClosing.Command.Serve

/-!
# Running commands

What a command comes to, and how the program ends when no command comes out of a command line: with
code 0 after help or the version, and with code 2 when words are refused.
-/

namespace LoanClosing

/-- What a command comes to. -/
inductive CommandResult where
  | report (report : CommandReport)
  /-- A service to be run at an address. -/
  | service (settings : Settings) (address : String)

namespace Command

/-- The files that a command reads. -/
def inputFiles : Command → List String
  | .serve _ => [ServeOptions.variableFile]
  | .evaluateRules options => [options.loanType, options.context]
  | .processTemplate options => [options.template, options.model]
  | .demo _ => []

/-- Runs a command. -/
def run (surroundings : Surroundings) : Command → Except Failure CommandResult
  | .serve options => (options.start surroundings).map fun (settings, address) ↦
    .service settings address
  | .evaluateRules options => (options.run surroundings).map .report
  | .processTemplate options => (options.run surroundings).map .report
  | .demo options => (options.run surroundings).map .report

end Command

/-- The text of a refusal. -/
def Refusal.message : Refusal → String
  | .unknownCommand word => "unrecognized subcommand '" ++ word ++ "'"
  | .missingCommand => "a subcommand is required"
  | .unexpected word => "unexpected argument '" ++ word ++ "' found"
  | .missingValue name => "a value is required for '--" ++ name ++ "'"
  | .invalidValue name value => "invalid value '" ++ value ++ "' for '--" ++ name ++ "'"
  | .repeated name => "the argument '--" ++ name ++ "' cannot be used multiple times"
  | .missingOption name => "the required argument '--" ++ name ++ "' was not provided"

/-- How the program ends without a command. -/
def Halt.ending : Halt → Ending
  | .help command => ⟨0, linesText (HelpPage.ofCommand command).lines, ""⟩
  | .version => ⟨0, linesText ["Closing Docs 0.1.0"], ""⟩
  | .refused refusal => ⟨2, "", linesText ["error: " ++ refusal.message]⟩

end LoanClosing
