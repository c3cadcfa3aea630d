import LoanClosing.Document.Processing

/-!
# Merging and rendering

Merging a document processes it against the data of a loan and renders the result. Rendering may
fail or break down; a breakdown has a message if it was given one.
-/

namespace LoanClosing

/-- Why a document was not rendered. -/
inductive RenderFailure where
  /-- The renderer could not write the document. -/
  | unwritable (reason : String)
  /-- The renderer broke down, with its message if it left one. -/
  | brokeDown (message : Option String)
  deriving DecidableEq, Repr

/-- A way of writing documents as bytes. -/
abbrev Renderer := Document → Except RenderFailure ByteArray

namespace Renderer

/-- Writes the document with one item a line. -/
def json : Renderer := fun document ↦ .ok document.prettyText.toUTF8

/-- Writes the text of the document. -/
def plainText : Renderer := fun document ↦ .ok document.plainText.toUTF8

end Renderer

/-- Why a job has no output. -/
inductive MergeError where
  | render (reason : String)
  | panicked (message : String)
  /-- There are no slots to merge in any more. -/
  | closed
  /-- The job was dropped, or somebody else took over its handle. -/
  | abandoned
  deriving DecidableEq, Repr

namespace MergeError

/-- The text of an error. -/
def message : MergeError → String
  | .render reason => "rendering merged document failed: failed to serialize document: " ++ reason
  | .panicked message => "merge panicked: " ++ message
  | .closed => "merge slots are closed"
  | .abandoned => "job was dropped before it completed"

/-- The error of a job whose document was not rendered. -/
def ofFailure : RenderFailure → MergeError
  | .unwritable reason => .render reason
  | .brokeDown message => .panicked (message.getD "unknown panic")

end MergeError

/-- Merges a document with the data of a loan. -/
def merge (processor : Processor) (renderer : Renderer) (document : Document) (model : Value) :
    Except MergeError ByteArray :=
  (renderer (processor.processDocument document model).1).mapError .ofFailure

end LoanClosing
