import LoanClosing.Document.Expansion

/-!
# Processing

A container is expanded once with placeholders filled. Data may have brought in new markers, so it
is then expanded again, without filling, as long as there are markers, the result changes, and a
limit is not reached. A report says what happened.
-/

namespace LoanClosing

/-- How documents are processed. -/
structure Processor where
  /-- The name that stands for the whole data. -/
  rootName : String
  /-- How often a container may be expanded again. -/
  maxExtraPasses : Nat
  deriving DecidableEq, Repr

/-- What happened to a container. -/
structure ContainerReport where
  name : String
  /-- How often it was expanded again. -/
  extraPasses : Nat
  /-- Whether an opener without a closer stopped the first expansion. -/
  aborted : Bool
  /-- The markers in the result. -/
  markersRemaining : Nat
  /-- The placeholders whose path led nowhere. -/
  unresolved : Nat
  /-- The placeholders in the result. -/
  unqualified : Nat
  deriving DecidableEq, Repr

/-- What happened to the containers of a document, in order. -/
structure Report where
  containers : List ContainerReport
  deriving DecidableEq, Repr

/-- Writes the report on a container. -/
def ContainerReport.toJson (report : ContainerReport) : Json :=
  .object [("name", .text report.name), ("extra_passes", .nat report.extraPasses),
    ("aborted", .bool report.aborted), ("markers_remaining", .nat report.markersRemaining),
    ("unresolved", .nat report.unresolved), ("unqualified", .nat report.unqualified)]

namespace Report

/-- Writes a report. -/
def toJson (report : Report) : Json :=
  .object [("containers", .array (report.containers.map ContainerReport.toJson))]

/-- The report on the first container of a name. -/
def container? (report : Report) (name : String) : Option ContainerReport :=
  report.containers.find? (·.name == name)

/-- Whether nothing was stopped and no marker is left. -/
def isClean (report : Report) : Bool :=
  report.containers.all fun container ↦ !container.aborted && container.markersRemaining == 0

end Report

namespace Processor

/-- The processor that is used unless another one is asked for. -/
def default : Processor := ⟨"Loan", 2⟩

/-- Expands again at most the given number of times; tells how often, and what comes out. -/
def extraPasses (scope : Scope) : Nat → List Block → Nat × List Block
  | 0, blocks => (0, blocks)
  | passes + 1, blocks =>
    if Marker.count blocks = 0 then (0, blocks)
    else
      let again := (expand false blocks scope).blocks
      if again = blocks then (1, blocks)
      else
        let (n, result) := extraPasses scope passes again
        (n + 1, result)

/-- Processes a container. -/
def processContainer (processor : Processor) (scope : Scope) (container : Container) :
    Container × ContainerReport :=
  let main := expand true container.blocks scope
  let (passes, blocks) := extraPasses scope processor.maxExtraPasses main.blocks
  (⟨container.name, blocks⟩,
    { name := container.name
      extraPasses := passes
      aborted := main.aborted
      markersRemaining := Marker.count blocks
      unresolved := main.tally.missing
      unqualified := (blocks.flatMap Block.keys).length })

/-- Processes containers, each by itself. -/
def process (processor : Processor) (containers : List Container) (model : Value) :
    List Container × Report :=
  let scope := Scope.outermost processor.rootName model
  let results := containers.map (processor.processContainer scope)
  (results.map Prod.fst, ⟨results.map Prod.snd⟩)

/-- Processes a document. -/
def processDocument (processor : Processor) (document : Document) (model : Value) :
    Document × Report :=
  let (containers, report) := processor.process document.containers model
  ({ document with containers := containers }, report)

end Processor

end LoanClosing
