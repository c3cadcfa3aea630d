import LoanClosing.Settings.Address
import LoanClosing.Table
import LoanClosing.Text.Blank

/-!
# Settings

The settings of the service are read from named variables, each with a value of its own when it is
not set. The first variable that cannot be read, in the order in which they are read, is reported.
-/

namespace LoanClosing

/-- Variables and their values. -/
abbrev Variables := List (String × String)

/-- The stage that the service runs in. -/
inductive Stage where
  | development
  | test
  | production
  deriving DecidableEq, Repr

/-- The settings. -/
structure Settings where
  stage : Stage
  host : String
  port : Nat
  logLevel : String
  /-- Whether log lines are coloured. -/
  ansi : Bool
  /-- How many merges run at a time. -/
  maxConcurrency : Nat
  /-- How long to wait before the queue is looked at again. -/
  pollIntervalMs : Nat
  rootName : String
  maxExtraPasses : Nat
  deriving DecidableEq, Repr

/-- Why settings cannot be used. -/
inductive SettingsError where
  | invalidPort
  | invalidHost
  | invalidNumber (variableName : String)
  | invalidFlag (variableName : String)
  | invalidConcurrency
  deriving DecidableEq, Repr

/-- The text of an error. -/
def SettingsError.message : SettingsError → String
  | .invalidPort => "APP_PORT must be a valid u16"
  | .invalidHost => "APP_HOST must parse to an IPv4 or IPv6 address"
  | .invalidNumber name => name ++ " must be a non-negative integer"
  | .invalidFlag name => name ++ " must be true or false"
  | .invalidConcurrency => "MERGE_MAX_CONCURRENCY must be at least 1"

/-- The name of a stage. -/
def Stage.name : Stage → String
  | .development => "development"
  | .test => "test"
  | .production => "production"

/-- The stage of a name; any other name means development. -/
def Stage.ofName (name : String) : Stage :=
  match Text.lowerAscii (Text.trim name) with
  | "prod" | "production" => .production
  | "test" | "ci" => .test
  | _ => .development

namespace Settings

/-- The variables that settings are read from, and the one that asks for a log filter. -/
def variableNames : List String := [
  "APP_ENV", "APP_HOST", "APP_PORT", "APP_LOG_LEVEL", "APP_LOG_ANSI", "MERGE_MAX_CONCURRENCY",
  "MERGE_POLL_INTERVAL_MS", "TEMPLATE_ROOT_NAME", "TEMPLATE_MAX_EXTRA_PASSES", "RUST_LOG"]

/-- Reads a natural number below a limit. -/
def readBelow? (limit : Nat) (s : String) : Option Nat :=
  (Text.readNat? s).bind fun n ↦ if n < limit then some n else none

/-- Reads a port. -/
def readPort? (s : String) : Option Nat := readBelow? (Nat.pow 2 16) s

/-- Reads a count of sixty-four bits. -/
def readCount? (s : String) : Option Nat := readBelow? (Nat.pow 2 64) s

/-- Reads a flag. -/
def readFlag? (s : String) : Option Bool :=
  match Text.lowerAscii (Text.trim s) with
  | "1" | "true" | "yes" | "on" => some true
  | "0" | "false" | "no" | "off" => some false
  | _ => none

/-- A number, with blanks around it or not. -/
def number (vars : Variables) (name : String) (fallback : Nat) : Except SettingsError Nat :=
  match Table.find? name vars with
  | none => .ok fallback
  | some s =>
    match readCount? (Text.trim s) with
    | some n => .ok n
    | none => .error (.invalidNumber name)

/-- The port. -/
def portOf (vars : Variables) : Except SettingsError Nat :=
  match Table.find? "APP_PORT" vars with
  | none => .ok 3000
  | some s =>
    match readPort? s with
    | some n => .ok n
    | none => .error .invalidPort

/-- Whether log lines are coloured: in development, unless a variable tells. -/
def ansiOf (vars : Variables) (stage : Stage) : Except SettingsError Bool :=
  match Table.find? "APP_LOG_ANSI" vars with
  | none => .ok (stage == .development)
  | some s =>
    match readFlag? s with
    | some flag => .ok flag
    | none => .error (.invalidFlag "APP_LOG_ANSI")

/-- The name that stands for the whole data; a blank one does not count. -/
def rootNameOf (vars : Variables) : String :=
  match (Table.find? "TEMPLATE_ROOT_NAME" vars).map Text.trim with
  | none | some "" => "Loan"
  | some name => name

/-- Reads the settings. -/
def load (vars : Variables) : Except SettingsError Settings := do
  let stage := Stage.ofName ((Table.find? "APP_ENV" vars).getD "development")
  let port ← portOf vars
  let ansi ← ansiOf vars stage
  let maxConcurrency ← number vars "MERGE_MAX_CONCURRENCY" 4
  if maxConcurrency = 0 then .error .invalidConcurrency
  else do
    let pollIntervalMs ← number vars "MERGE_POLL_INTERVAL_MS" 1000
    let maxExtraPasses ← number vars "TEMPLATE_MAX_EXTRA_PASSES" 2
    .ok {
      stage := stage
      host := (Table.find? "APP_HOST" vars).getD "127.0.0.1"
      port := port
      logLevel := (Table.find? "APP_LOG_LEVEL" vars).getD "info"
      ansi := ansi
      maxConcurrency := maxConcurrency
      pollIntervalMs := pollIntervalMs
      rootName := rootNameOf vars
      maxExtraPasses := maxExtraPasses }

/-- The address to listen at. -/
def address (settings : Settings) : Except SettingsError String :=
  if Text.sameFolded settings.host "localhost" then .ok (Address.loopback.withPort settings.port)
  else
    match Address.read? settings.host with
    | some address => .ok (address.withPort settings.port)
    | none => .error .invalidHost

end Settings

end LoanClosing
