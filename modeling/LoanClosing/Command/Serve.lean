import LoanClosing.Command.Basic
import LoanClosing.Command.Report
import LoanClosing.Settings.VariableFile

/-!
# Starting to serve

Before the service listens, the variables of the file `.env` are set, the settings read and
overridden by options, the log filter chosen, and the address made out. The first of these that
fails ends it.
-/

namespace LoanClosing

namespace ServeOptions

/-- The file of variables. -/
def variableFile : String := ".env"

/-- The variables, with those of the file of variables if there is one. -/
def vars (surroundings : Surroundings) : Variables :=
  match surroundings.fileText variableFile with
  | .ok file => VariableFile.set surroundings.vars file
  | .error _ => surroundings.vars

/-- Overrides settings. -/
def override (options : ServeOptions) (settings : Settings) : Settings :=
  { settings with
    host := options.host.getD settings.host
    port := options.port.getD settings.port
    maxConcurrency := (options.maxConcurrency.map (max 1)).getD settings.maxConcurrency }

/-- The settings to serve with, and the address to listen at. -/
def start (options : ServeOptions) (surroundings : Surroundings) :
    Except Failure (Settings × String) := do
  let vars := vars surroundings
  let settings ← (Settings.load vars).mapError .settings
  let settings := options.override settings
  let _ ← (LogFilter.choose (Table.find? "RUST_LOG" vars) settings.logLevel).mapError .logging
  let address ← settings.address.mapError .settings
  .ok (settings, address)

end ServeOptions

end LoanClosing
