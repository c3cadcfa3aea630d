import LoanClosing.Http.Message

/-!
# Routes

A target is a path, or a scheme and a host with a path behind them. A path is known segment by
segment, as it is written; a query and a fragment do not matter. Each known path serves some
methods, and one that serves reading serves asking for the head too.
-/

namespace LoanClosing.Http

/-- A known path. -/
inductive Route where
  | health
  | readiness
  | metrics
  | rules
  | templates
  /-- The documents of a loan, by the segment that names the loan. -/
  | documents (segment : String)
  deriving DecidableEq, Repr

/-- What a request is for. -/
inductive Endpoint where
  | showHealth
  | showReadiness
  | showMetrics
  | evaluateRules
  | processTemplate
  | dispatch (segment : String)
  | showStatus (segment : String)
  deriving DecidableEq, Repr

/-- Whether a scheme may have a character. -/
def isSchemeChar (c : Char) : Bool :=
  c.isAlphanum || c == '+' || c == '-' || c == '.' || c == '~'

/-- Whether a character ends a host. -/
def endsHost (c : Char) : Bool := c == '/' || c == '?' || c == '#'

/-- A target from its path on. A target that has neither a path in front nor a scheme has none. -/
def fromPath (target : List Char) : List Char :=
  match target with
  | '/' :: _ => target
  | _ =>
    match target.dropWhile isSchemeChar with
    | ':' :: '/' :: '/' :: rest => rest.dropWhile (!endsHost ·)
    | _ => []

/-- The segments of the path of a target. -/
def segments (target : String) : List String :=
  let path := (fromPath target.toList).takeWhile fun c ↦ c != '?' && c != '#'
  (Text.splitAt '/' path).map String.ofList

namespace Route

/-- The path of a target, if it is known. -/
def ofTarget? (target : String) : Option Route :=
  match segments target with
  | ["", "health"] => some .health
  | ["", "ready"] => some .readiness
  | ["", "metrics"] => some .metrics
  | ["", "api", "v1", "rules", "evaluate"] => some .rules
  | ["", "api", "v1", "templates", "process"] => some .templates
  | ["", "api", "v1", "loans", segment, "documents"] => some (.documents segment)
  | _ => none

/-- What a method asks for at a known path. -/
def endpoint? (route : Route) (method : Method) : Option Endpoint :=
  match route, method with
  | .health, .get | .health, .head => some .showHealth
  | .readiness, .get | .readiness, .head => some .showReadiness
  | .metrics, .get | .metrics, .head => some .showMetrics
  | .rules, .post => some .evaluateRules
  | .templates, .post => some .processTemplate
  | .documents segment, .post => some (.dispatch segment)
  | .documents segment, .get | .documents segment, .head => some (.showStatus segment)
  | _, _ => none

end Route

end LoanClosing.Http
