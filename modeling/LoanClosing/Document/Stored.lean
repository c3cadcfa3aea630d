import LoanClosing.Document.Basic

/-!
# Stored documents

A document is stored as compact JSON. Reading a stored document refuses bytes that are not JSON of
that shape and documents without containers.
-/

namespace LoanClosing.Document

/-- Why stored bytes are no document. -/
inductive StoredError where
  | malformed (error : Json.DecodeError)
  | empty
  deriving DecidableEq, Repr

/-- The text of an error. -/
def StoredError.message : StoredError → String
  | .malformed error => "malformed document: " ++ error.message
  | .empty => "document has no containers"

/-- Reads a stored document. -/
def ofBytes (bytes : ByteArray) : Except StoredError Document :=
  match Json.decodeBytes decode bytes with
  | .error error => .error (.malformed error)
  | .ok document => if document.containers.isEmpty then .error .empty else .ok document

/-- Writes a document as it is stored. -/
def stored (document : Document) : ByteArray := document.toJson.compact.toUTF8

end LoanClosing.Document
