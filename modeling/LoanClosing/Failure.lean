import LoanClosing.Package.Dispatch
import LoanClosing.Settings.Basic
import LoanClosing.Settings.LogFilter

/-!
# Failures of the service

Whatever stops the service or a command, with its text and the status of an answer that tells about
it. A failure has a reason, and the reason may have a cause again.
-/

namespace LoanClosing

/-- A failure. -/
inductive Failure where
  | settings (error : SettingsError)
  | logging (error : LogFilterError)
  /-- A file or an address cannot be used. -/
  | io (reason : String)
  | server (reason : String)
  | package (error : PackageError)
  | document (error : Document.StoredError)
  /-- An input file has the wrong shape. -/
  | input (error : Json.DecodeError)
  deriving DecidableEq, Repr

/-- What the error is blamed on. -/
def Document.StoredError.cause? : Document.StoredError → Option String
  | .malformed error => some error.message
  | .empty => none

/-- What the error is blamed on. -/
def PackageError.cause? : PackageError → Option String
  | .unreadable error => some error.message
  | .templateNotFound _ | .unknownLoan _ | .unavailable _ | .failed _ => none

/-- What the error is blamed on. -/
def SettingsError.cause? : SettingsError → Option String
  | .invalidHost => some "invalid IP address syntax"
  | .invalidPort | .invalidNumber _ | .invalidFlag _ | .invalidConcurrency => none

/-- What the error is blamed on. -/
def LogFilterError.cause? : LogFilterError → Option String
  | .invalid _ problem => some problem.message
  | .notInstalled _ => none

namespace Failure

/-- What a failure is about. -/
def subject : Failure → String
  | .settings _ => "configuration error"
  | .logging _ => "telemetry error"
  | .io _ => "io error"
  | .server _ => "server error"
  | .package _ => "package error"
  | .document _ => "document error"
  | .input _ => "invalid input"

/-- The reason of a failure. -/
def reason : Failure → String
  | .settings error => error.message
  | .logging error => error.message
  | .io reason | .server reason => reason
  | .package error => error.message
  | .document error => error.message
  | .input error => error.message

/-- The cause of the reason. -/
def cause? : Failure → Option String
  | .settings error => error.cause?
  | .logging error => error.cause?
  | .server reason => some reason
  | .package error => error.cause?
  | .document error => error.cause?
  | .io _ | .input _ => none

/-- The text of a failure. -/
def message (failure : Failure) : String := failure.subject ++ ": " ++ failure.reason

/-- The status of an answer that tells about a failure: not found, a bad request, or a fault of the
service. -/
def status : Failure → Nat
  | .package (.templateNotFound _) | .package (.unknownLoan _) => 404
  | .document _ | .input _ => 400
  | .settings _ | .logging _ | .io _ | .server _ | .package _ => 500

/-- The body of an answer that tells about a failure. -/
def body (failure : Failure) : Json := .object [("error", .text failure.message)]

end Failure

end LoanClosing
