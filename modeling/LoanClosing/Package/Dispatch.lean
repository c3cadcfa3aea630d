import LoanClosing.Document.Stored
import LoanClosing.Merging.Desk
import LoanClosing.Rules.Selection

/-!
# Closing packages

Dispatching a loan selects its documents, reads all their templates, and only then puts a job for
each at the desk, all with one new tracker, which becomes the tracker of the loan. When a template
cannot be read, nothing happens.
-/

namespace LoanClosing

/-- Fetches the stored template of a document, if there is one; an error is that the store cannot be
reached. -/
abbrev TemplateStore := String → Except String (Option ByteArray)

/-- Reads a document from the bytes of its template. -/
abbrev TemplateReader := ByteArray → Except Document.StoredError Document

/-- Why a package cannot be dispatched or shown. -/
inductive PackageError where
  | templateNotFound (id : String)
  | unknownLoan (loan : String)
  /-- The template store cannot be reached. -/
  | unavailable (reason : String)
  | unreadable (error : Document.StoredError)
  | failed (failure : MergeFailure)
  deriving DecidableEq, Repr

/-- The text of an error. -/
def PackageError.message : PackageError → String
  | .templateNotFound id => "no template stored for document '" ++ id ++ "'"
  | .unknownLoan loan => "no package dispatched for loan '" ++ loan ++ "'"
  | .unavailable reason => "template store unavailable: " ++ reason
  | .unreadable error => "template could not be read: " ++ error.message
  | .failed failure => failure.message

/-- What was dispatched. -/
structure Receipt where
  loan : String
  documentIds : List String
  jobs : List JobId
  deriving DecidableEq, Repr

/-- Writes a receipt. -/
def Receipt.toJson (receipt : Receipt) : Json :=
  .object [
    ("loan_id", .text receipt.loan),
    ("document_ids", .array (receipt.documentIds.map .text)),
    ("jobs", .array (receipt.jobs.map fun id ↦ .text id.text))]

/-- The packages: the desk where they are merged, and the tracker of each loan. -/
structure Packages where
  desk : Desk
  loans : List (String × Nat)

namespace Packages

/-- No packages. -/
def opened (capacity : Nat) : Packages := ⟨.opened capacity, []⟩

/-- Reads the template of a document. A template without a name is named for the document. -/
def readTemplate (reader : TemplateReader) (store : TemplateStore) (id : String) :
    Except PackageError Document := do
  let stored ← (store id).mapError .unavailable
  match stored with
  | none => .error (.templateNotFound id)
  | some bytes =>
    let document ← (reader bytes).mapError .unreadable
    .ok (if document.name = "" then { document with name := id } else document)

/-- Reads the templates of documents, in order. -/
def readTemplates (reader : TemplateReader) (store : TemplateStore) :
    List String → Except PackageError (List (String × Document))
  | [] => .ok []
  | id :: ids => do
    let document ← readTemplate reader store id
    let documents ← readTemplates reader store ids
    .ok ((id, document) :: documents)

/-- Puts a job for each document at the desk. -/
def enqueueAll (model : Value) (tracker : Nat) : Desk → List (String × Document) →
    Desk × List JobId
  | desk, [] => (desk, [])
  | desk, (id, document) :: documents =>
    let (desk, job) := desk.newJob id document model (some tracker)
    let (desk, jobs) := enqueueAll model tracker (desk.enqueue job) documents
    (desk, job.id :: jobs)

/-- Dispatches the package of a loan, whose templates are read by the given reader. -/
def dispatchWith (reader : TemplateReader) (packages : Packages) (store : TemplateStore)
    (loan : String) (loanType : LoanType) (context : Context) (model : Value) :
    Packages × Except PackageError Receipt :=
  let selection := loanType.select false context
  match readTemplates reader store selection.documentIds with
  | .error error => (packages, .error error)
  | .ok documents =>
    let (desk, tracker) := packages.desk.addTracker (.ofExpected documents.length)
    let (desk, jobs) := enqueueAll model tracker desk documents
    (⟨desk, Table.put loan tracker packages.loans⟩, .ok ⟨loan, selection.documentIds, jobs⟩)

/-- Dispatches the package of a loan, whose templates are stored as JSON. -/
def dispatch (packages : Packages) (store : TemplateStore) (loan : String) (loanType : LoanType)
    (context : Context) (model : Value) : Packages × Except PackageError Receipt :=
  packages.dispatchWith Document.ofBytes store loan loanType context model

/-- The tracker of a loan. -/
def tracker? (packages : Packages) (loan : String) : Option Tracker :=
  (Table.find? loan packages.loans).bind (packages.desk.trackers[·]?)

/-- The status of the package of a loan. -/
def status (packages : Packages) (loan : String) : Except PackageError TrackerStatus :=
  match packages.tracker? loan with
  | none => .error (.unknownLoan loan)
  | some tracker => .ok tracker.status

/-- The outputs of the package of a loan, if there is no need to wait for them. -/
def results (packages : Packages) (loan : String) : Except PackageError (Option Outputs) :=
  match packages.tracker? loan with
  | none => .error (.unknownLoan loan)
  | some tracker =>
    match tracker.wait? with
    | none => .ok none
    | some (.ok outputs) => .ok (some outputs)
    | some (.error failure) => .error (.failed failure)

/-- Merges all jobs that wait; tells how many there were. -/
def processPending (settings : MergeSettings) (packages : Packages) : Packages × Nat :=
  let (desk, count) := packages.desk.processPending settings
  ({ packages with desk := desk }, count)

/-- Drops all jobs that wait; tells how many there were. -/
def dropPending (packages : Packages) : Packages × Nat :=
  let (desk, jobs) := packages.desk.dropPending
  ({ packages with desk := desk }, jobs.length)

end Packages

end LoanClosing
