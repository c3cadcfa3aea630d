import LoanClosing.Command.Evaluate
import LoanClosing.Package.Dispatch
import LoanClosing.Sample

/-!
# The demonstration

Takes the sample loan, changed as asked for, through selection and merging, and shows the merged
documents.
-/

namespace LoanClosing

namespace DemoOptions

/-- The sample context with the changes asked for. -/
def context (options : DemoOptions) : Context :=
  let context := match options.state with
    | none => Sample.context
    | some state => Sample.context.insert "PropertyState" (Text.upperAscii (Text.trim state))
  match options.occupancy with
  | none => context
  | some name => context.insert "Occupancy" (Occupancy.ofName name).name

/-- The sample data with the changes asked for. -/
def model (options : DemoOptions) : Value :=
  let model := match options.state with
    | none => Sample.model
    | some state =>
      Value.setMember (.text (Text.upperAscii (Text.trim state))) ["Property", "State"] Sample.model
  let model := match options.occupancy with
    | none => model
    | some name => Value.setMember (.enum (Occupancy.ofName name).choice) ["Occupancy"] model
  match options.closingDate with
  | none => model
  | some day => Value.setMember (.date day) ["Closing"] model

/-- The store of the sample templates. -/
def store : TemplateStore := fun id ↦ .ok (Table.find? id Sample.stored)

/-- How the documents are merged. -/
def settings : MergeSettings := ⟨.default, .plainText⟩

/-- The loan that is dispatched. -/
def loan : String := "demo-loan"

/-- The line about a document selected. -/
def selectedLine (id : String) (job : JobId) : String := "- " ++ id ++ " (" ++ job.text ++ ")"

/-- The line about a job. -/
def jobLine (announcement : Announcement) : String :=
  "  event: " ++ announcement.job.text ++
    match announcement.result with
    | .ok output =>
      " completed " ++ announcement.key ++ " (" ++ toString output.size ++ " bytes)"
    | .error text => " failed " ++ announcement.key ++ ": " ++ text

/-- The lines about a merged document. -/
def outputLines (outputs : Outputs) (id : String) : List String :=
  match Table.find? id outputs with
  | none => []
  | some output => ["", "=== " ++ id ++ " ===", Text.Utf8.shown output]

/-- Runs the demonstration. -/
def run (options : DemoOptions) (surroundings : Surroundings) : Except Failure CommandReport := do
  let packages := Packages.opened Bulletin.defaultCapacity
  let packages := { packages with
    desk := { packages.desk with bulletin := packages.desk.bulletin.follow } }
  let (packages, result) :=
    packages.dispatch store loan Sample.loanType options.context options.model
  let receipt ← result.mapError .package
  let (packages, merged) := packages.processPending settings
  let (_, _, announcements) := packages.desk.bulletin.read 0
  let outputs ← (packages.results loan).mapError .package
  .ok (.ofLines (
    ["Closing package demo: " ++ Sample.loanType.title, "", "Selected documents"] ++
    receipt.documentIds.zipWith selectedLine receipt.jobs ++
    ["", "Merged " ++ toString merged ++ " document(s) with up to " ++
      toString (slotCount options.maxConcurrency) ++ " at once in " ++ surroundings.elapsed ++
      " ms"] ++
    announcements.map jobLine ++
    receipt.documentIds.flatMap (outputLines (outputs.getD []))))

end DemoOptions

end LoanClosing
