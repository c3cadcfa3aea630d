import LoanClosing.Http.Route
import LoanClosing.Package.Dispatch
import LoanClosing.Text.Percent

/-!
# The service

Answers requests: rules are evaluated and templates processed at once; packages are dispatched, and
their status shown. Of the faults of a request, the one in its path is told first, then the media
type, then the body.
-/

namespace LoanClosing.Http

/-- The service. -/
structure Service where
  packages : Packages
  store : TemplateStore
  /-- How templates are processed that bring no root name of their own. -/
  processor : Processor
  /-- Whether the service has been started up. -/
  ready : Bool

/-! ## Request bodies -/

/-- A request for an evaluation of rules. -/
structure RulesRequest where
  loanType : LoanType
  context : Json
  trace : Bool

open Json Json.Decode in
/-- Reads a request for an evaluation of rules. -/
def RulesRequest.decode : Json.Decoder RulesRequest := fun source node ↦ do
  let (loanType, context, trace) ← record "RulesRequest"
    ((required "loan_type" LoanType.decode).and
      ((defaulted "context" json .null).and (defaulted "trace" bool false).only)) source node
  .ok ⟨loanType, context, trace⟩

/-- A request to process a template. -/
structure TemplateRequest where
  document : Document
  rootName : Option String
  model : Value

open Json Json.Decode in
/-- Reads a request to process a template. -/
def TemplateRequest.decode : Json.Decoder TemplateRequest := fun source node ↦ do
  let (document, rootName, model) ← record "TemplateRequest"
    ((required "document" Document.decode).and
      ((defaulted "root_name" (option text) none).and
        (defaulted "model" Value.decode .null).only)) source node
  .ok ⟨document, rootName, model⟩

/-- A request to dispatch a package. -/
structure DispatchRequest where
  loanType : LoanType
  context : Json
  model : Value

open Json Json.Decode in
/-- Reads a request to dispatch a package. -/
def DispatchRequest.decode : Json.Decoder DispatchRequest := fun source node ↦ do
  let (loanType, context, model) ← record "DispatchRequest"
    ((required "loan_type" LoanType.decode).and
      ((defaulted "context" json .null).and (defaulted "model" Value.decode .null).only))
    source node
  .ok ⟨loanType, context, model⟩

/-! ## Answers -/

/-- The answer of a check: what it is about, and its state. -/
def stateJson (state : String) : Json := .object [("status", .text state)]

/-- The processor for a template: a root name of its own counts unless it is blank. -/
def TemplateRequest.processor (request : TemplateRequest) (service : Service) : Processor :=
  match request.rootName.map Text.trim with
  | none | some "" => service.processor
  | some rootName => { service.processor with rootName := rootName }

/-- The status that tells why a package was not dispatched. -/
def dispatchStatus : PackageError → Nat
  | .templateNotFound _ => 404
  | .unreadable _ => 422
  | .unknownLoan _ | .unavailable _ | .failed _ => 500

/-- The answer to data that can be read, or the status that tells what is wrong with them. -/
def answerTo {α : Type} (data : Except Nat α) (answer : α → Response) : Response :=
  match data with
  | .error status => .bare status
  | .ok a => answer a

namespace Service

/-- Evaluates rules. -/
def evaluateRules (request : RulesRequest) : Response :=
  .json 200 (request.loanType.select request.trace (.ofJson request.context)).toJson

/-- Processes a template. -/
def processTemplate (service : Service) (request : TemplateRequest) : Response :=
  let (document, report) :=
    (request.processor service).processDocument request.document request.model
  .json 200 (.object [("document", document.toJson), ("report", report.toJson)])

/-- Dispatches the package of a loan. -/
def dispatch (service : Service) (loan : String) (request : DispatchRequest) : Service × Response :=
  let (packages, result) := service.packages.dispatch service.store loan request.loanType
    (.ofJson request.context) request.model
  ({ service with packages := packages },
    match result with
    | .ok receipt => .json 202 receipt.toJson
    | .error error => .error (dispatchStatus error) error.message)

/-- Shows the status of the package of a loan. -/
def showStatus (service : Service) (loan : String) : Response :=
  match service.packages.status loan with
  | .ok status => .json 200 (.object [("loan_id", .text loan), ("status", status.toJson)])
  | .error error => .error 404 error.message

/-- Tells whether the service has been started up. -/
def showReadiness (service : Service) : Response :=
  if service.ready then .json 200 (stateJson "ready") else .json 503 (stateJson "initializing")

/-- Serves a request at its endpoint. -/
def serve (service : Service) (request : Request) : Endpoint → Service × Response
  | .showHealth => (service, .json 200 (stateJson "ok"))
  | .showReadiness => (service, service.showReadiness)
  | .showMetrics => (service, ⟨200, .text "text/plain; version=0.0.4" ""⟩)
  | .evaluateRules => (service, answerTo (request.data RulesRequest.decode) evaluateRules)
  | .processTemplate =>
    (service, answerTo (request.data TemplateRequest.decode) service.processTemplate)
  | .dispatch segment =>
    match Text.percentDecoded? segment, request.data DispatchRequest.decode with
    | none, _ => (service, .bare 400)
    | some _, .error status => (service, .bare status)
    | some loan, .ok data => service.dispatch loan data
  | .showStatus segment =>
    match Text.percentDecoded? segment with
    | none => (service, .bare 400)
    | some loan => (service, service.showStatus loan)

/-- Answers a request. -/
def answer (service : Service) (request : Request) : Service × Response :=
  match Route.ofTarget? request.target with
  | none => (service, .bare 404)
  | some route =>
    match route.endpoint? request.method with
    | none => (service, .bare 405)
    | some endpoint =>
      let (service, response) := service.serve request endpoint
      (service, if request.method = .head then response.headOnly else response)

/-- Merges all jobs that wait; tells how many there were. -/
def processPending (settings : MergeSettings) (service : Service) : Service × Nat :=
  let (packages, count) := service.packages.processPending settings
  ({ service with packages := packages }, count)

end Service

end LoanClosing.Http
