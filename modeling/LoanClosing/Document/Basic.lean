import LoanClosing.Json.Decode
import LoanClosing.Json.Printer
import LoanClosing.Text.Blank

/-!
# Documents

A document is a list of named containers, a container a list of blocks, and a block a list of
leaves: pieces of text with a formatting each. Formatting is any JSON value, and null where there is
none. What a block says is the text of its leaves put together.
-/

namespace LoanClosing

/-- A piece of text. -/
structure Leaf where
  text : String
  format : Json
  deriving DecidableEq, Repr

/-- A paragraph. -/
structure Block where
  leaves : List Leaf
  format : Json
  deriving DecidableEq, Repr

/-- A named part of a document. -/
structure Container where
  name : String
  blocks : List Block
  deriving DecidableEq, Repr

/-- A document, or a template for one. -/
structure Document where
  name : String
  containers : List Container
  deriving DecidableEq, Repr

namespace Leaf

/-- A piece of text without formatting. -/
def plain (text : String) : Leaf := ⟨text, .null⟩

open Json Json.Decode in
/-- Reads a piece of text. -/
def decode : Json.Decoder Leaf := fun source node ↦ do
  let (text, format) ← record "Leaf"
    ((required "text" Decode.text).and (defaulted "format" json .null).only) source node
  .ok ⟨text, format⟩

end Leaf

/-- The member for a formatting, left out where there is none. -/
def formatMember : Json → List (String × Json)
  | .null => []
  | format => [("format", format)]

namespace Leaf

/-- Writes a piece of text. -/
def toJson (leaf : Leaf) : Json := .object (("text", .text leaf.text) :: formatMember leaf.format)

end Leaf

namespace Block

/-- A paragraph of one piece of text. -/
def ofText (text : String) : Block := ⟨[.plain text], .null⟩

/-- The characters of a paragraph. -/
def chars (block : Block) : List Char := block.leaves.flatMap fun leaf ↦ leaf.text.toList

/-- The text of a paragraph. -/
def plainText (block : Block) : String := String.ofList block.chars

/-- The words of a paragraph with one space between two of them. -/
def normalizedText (block : Block) : String := String.ofList (Text.normalize block.chars)

/-- Writes a paragraph. -/
def toJson (block : Block) : Json :=
  .object (("leaves", .array (block.leaves.map Leaf.toJson)) :: formatMember block.format)

open Json Json.Decode in
/-- Reads a paragraph. -/
def decode : Json.Decoder Block := fun source node ↦ do
  let (leaves, format) ← record "Block"
    ((required "leaves" (list Leaf.decode)).and (defaulted "format" json .null).only) source node
  .ok ⟨leaves, format⟩

end Block

namespace Container

/-- The texts of the paragraphs. -/
def plainLines (container : Container) : List String := container.blocks.map Block.plainText

/-- Writes a container. -/
def toJson (container : Container) : Json :=
  .object [("name", .text container.name), ("blocks", .array (container.blocks.map Block.toJson))]

open Json Json.Decode in
/-- Reads a container. -/
def decode : Json.Decoder Container := fun source node ↦ do
  let (name, blocks) ← record "Container"
    ((required "name" Decode.text).and (defaulted "blocks" (list Block.decode) []).only) source node
  .ok ⟨name, blocks⟩

end Container

namespace Document

/-- The first container of a name. -/
def container? (document : Document) (name : String) : Option Container :=
  document.containers.find? (·.name == name)

/-- Writes a document. -/
def toJson (document : Document) : Json :=
  .object [("name", .text document.name),
    ("containers", .array (document.containers.map Container.toJson))]

open Json Json.Decode in
/-- Reads a document. -/
def decode : Json.Decoder Document := fun source node ↦ do
  let (name, containers) ← record "TemplateDocument"
    ((defaulted "name" Decode.text "").and (required "containers" (list Container.decode)).only)
    source node
  .ok ⟨name, containers⟩

/-- The text of a document: its paragraphs on a line each, and an empty line between containers that
have any. -/
def plainText (document : Document) : String :=
  "\n\n".intercalate
    ((document.containers.filter fun container ↦ !container.blocks.isEmpty).map fun container ↦
      "\n".intercalate container.plainLines)

/-- The document written out with one item a line. -/
def prettyText (document : Document) : String := document.toJson.pretty

end Document

end LoanClosing
