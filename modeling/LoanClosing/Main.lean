import LoanClosing.Command.Run
import LoanClosing.Http.Service

/-!
# The program

Runs the command that its words ask for. The service takes requests from standard input, one JSON
object a line, and answers each with one line on standard output.
-/

namespace LoanClosing.Program

/-- Why the system refused something. -/
def refusalText (e : IO.Error) : String :=
  match e with
  | .noFileOrDirectory _ code details => details ++ " (os error " ++ toString code ++ ")"
  | .permissionDenied _ code details => details ++ " (os error " ++ toString code ++ ")"
  | .inappropriateType _ code details => details ++ " (os error " ++ toString code ++ ")"
  | e => toString e

/-- Reads a file. -/
def readText (path : String) : IO (String × Except String String) := do
  try
    let text ← IO.FS.readFile path
    return (path, .ok text)
  catch e => return (path, .error (refusalText e))

/-- Writes a file; tells why it cannot be written if it cannot. -/
def writeText (path text : String) : IO (Option String) := do
  try
    IO.FS.writeFile path text
    return none
  catch e => return some (refusalText e)

/-- The variables of the given names that are set. -/
def variablesOf (names : List String) : IO Variables := do
  let values ← names.mapM fun name ↦ do return (← IO.getEnv name).map (name, ·)
  return values.filterMap id

/-- A request of a line. -/
def requestOf (line : Json) : Http.Request :=
  let text? (name : String) : Option String := match line.member? name with
    | some (.text s) => some s
    | _ => none
  { method := .ofName ((text? "method").getD "GET")
    target := (text? "path").getD "/"
    contentType := text? "content_type"
    body := (text? "body").getD "" }

/-- The line of an answer. -/
def answerLine (response : Http.Response) : String :=
  let content := match response.content with
    | .empty => []
    | .json body => [("content_type", Json.text "application/json"), ("body", body)]
    | .text mediaType s => [("content_type", Json.text mediaType), ("body", .text s)]
  (Json.object (("status", .nat response.status) :: content)).compact

/-- Answers requests until there are no more; jobs are merged after each. -/
partial def serveLines (settings : MergeSettings) (service : Http.Service)
    (input output : IO.FS.Stream) : IO Unit := do
  let line ← input.getLine
  if line.isEmpty then return ()
  let (service, response) := match Json.ofString? line with
    | some request => service.answer (requestOf request)
    | none => (service, .bare 400)
  output.putStrLn (answerLine response)
  output.flush
  serveLines settings (service.processPending settings).1 input output

/-- Runs the service. -/
def runService (settings : Settings) : IO UInt32 := do
  let processor : Processor := ⟨settings.rootName, settings.maxExtraPasses⟩
  let service : Http.Service :=
    ⟨.opened Bulletin.defaultCapacity, DemoOptions.store, processor, true⟩
  serveLines ⟨processor, .json⟩ service (← IO.getStdin) (← IO.getStdout)
  return 0

/-- Ends the program. -/
def finish (ending : Ending) : IO UInt32 := do
  IO.print ending.stdout
  IO.eprint ending.stderr
  return UInt32.ofNat ending.exitCode

/-- Runs a command. -/
def runCommand (command : Command) : IO UInt32 := do
  let files ← command.inputFiles.mapM readText
  let mentioned := files.flatMap fun (_, text) ↦ (text.toOption.map VariableFile.names).getD []
  let names := match command with
    | .serve _ => Settings.variableNames ++ mentioned
    | _ => []
  let surroundings : Surroundings := {
    vars := ← variablesOf names
    fileText := fun path ↦ (Table.find? path files).getD (.error "")
    elapsed := "0" }
  let started ← IO.monoMsNow
  let result := command.run surroundings
  let failed := match result with
    | .ok _ => false
    | .error _ => true
  let ended ← IO.monoMsNow
  let result := if failed then result
    else command.run { surroundings with elapsed := toString (ended - started) }
  match result with
  | .error failure => finish (.ofFailure failure)
  | .ok (.service settings _) => runService settings
  | .ok (.report report) =>
    let problem ← match report.output with
      | some (path, text) => writeText path text
      | none => pure none
    finish (.ofReport report problem)

end LoanClosing.Program

/-- Runs the program with the words of its command line. -/
def main (words : List String) : IO UInt32 :=
  match LoanClosing.Command.ofWords words with
  | .error halt => LoanClosing.Program.finish halt.ending
  | .ok command => LoanClosing.Program.runCommand command
