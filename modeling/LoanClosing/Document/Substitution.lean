import LoanClosing.Document.Placeholder
import LoanClosing.Text.Bytes

/-!
# Substitution

A paragraph is scanned for its placeholders, which may run over several leaves, and these are filled
from the last one to the first, so that an edit leaves the places of those still to come as they
are. The text goes into the leaf where the placeholder begins; leaves keep their number and
formatting. Places are counted in bytes, and an edit inside of a character has no result.
-/

namespace LoanClosing

namespace Placeholder

/-- A place in the text of a paragraph. -/
structure Place where
  leaf : Nat
  /-- How many bytes of the leaf come before. -/
  offset : Nat
  deriving DecidableEq, Repr

/-- A placeholder as it is found. -/
structure Token where
  /-- Where its opening brace stands. -/
  first : Place
  /-- The place behind its closing brace. -/
  last : Place
  key : List Char
  deriving DecidableEq, Repr

/-- How far a scan has come. -/
structure Scan where
  tokens : List Token
  /-- The last opening brace, if no other brace has followed it, and the key so far. -/
  opened : Option (Place × List Char)
  deriving DecidableEq, Repr

namespace Place

/-- The place behind a character. -/
def after (place : Place) (c : Char) : Place :=
  { place with offset := place.offset + c.utf8Size }

end Place

namespace Scan

/-- Nothing scanned. -/
def empty : Scan := ⟨[], none⟩

/-- Takes in the character at a place. -/
def char (scan : Scan) (place : Place) (c : Char) : Scan :=
  if c = '\x7b' then { scan with opened := some (place, []) }
  else if c = '\x7d' then
    match scan.opened with
    | some (first, key) => ⟨scan.tokens ++ [⟨first, place.after c, key⟩], none⟩
    | none => scan
  else { scan with opened := scan.opened.map fun (first, key) ↦ (first, key ++ [c]) }

/-- Takes in a text that begins at a place. -/
def chars (scan : Scan) (place : Place) : List Char → Scan
  | [] => scan
  | c :: cs => (scan.char place c).chars (place.after c) cs

/-- Takes in leaves, of which the first one has the given number. -/
def leaves (scan : Scan) (n : Nat) : List Leaf → Scan
  | [] => scan
  | leaf :: more => (scan.chars ⟨n, 0⟩ leaf.text.toList).leaves (n + 1) more

end Scan

/-- Edits the text of one of several leaves. -/
def editLeaf? (edit : List Char → Option (List Char)) : Nat → List Leaf → Option (List Leaf)
  | _, [] => none
  | 0, leaf :: more => (edit leaf.text.toList).map fun cs ↦
    { leaf with text := String.ofList cs } :: more
  | n + 1, leaf :: more => (editLeaf? edit n more).map (leaf :: ·)

/-- Clears the text of the leaves from one up to another. -/
def clearLeaves (first last : Nat) (leaves : List Leaf) : List Leaf :=
  leaves.take first ++ ((leaves.take last).drop first).map (fun leaf ↦ { leaf with text := "" }) ++
    leaves.drop last

/-- Puts a text in place of what is between two places. It goes into the leaf of the first one. -/
def replaceSpan? (first last : Place) (piece : List Char) (leaves : List Leaf) :
    Option (List Leaf) :=
  if first.leaf = last.leaf then
    editLeaf? (Text.replaceBytes? first.offset last.offset piece) first.leaf leaves
  else if first.leaf < last.leaf then do
    let cut ← editLeaf? (fun cs ↦ (Text.truncateAt? first.offset cs).map (· ++ piece)) first.leaf
      leaves
    editLeaf? (Text.replaceBytes? 0 last.offset []) last.leaf
      (clearLeaves (first.leaf + 1) last.leaf cut)
  else none

/-- Fills a placeholder in the leaves that the ones behind it have left, and counts it. -/
def fillToken? (scope : Scope) (token : Token) :
    List Leaf × Tally → Option (List Leaf × Tally)
  | (leaves, tally) =>
    match filling scope token.key with
    | .keep => some (leaves, tally)
    | .unqualified => some (leaves, { tally with unqualified := tally.unqualified + 1 })
    | .missing => (replaceSpan? token.first token.last [] leaves).map fun leaves ↦
      (leaves, { tally with replaced := tally.replaced + 1, missing := tally.missing + 1 })
    | .put text => (replaceSpan? token.first token.last text leaves).map fun leaves ↦
      (leaves, { tally with replaced := tally.replaced + 1 })

end Placeholder

namespace Block

open Placeholder

/-- The placeholders of a paragraph, and what is open where it ends. -/
def scan (block : Block) : Scan := Scan.empty.leaves 0 block.leaves

/-- The keys of the placeholders of a paragraph that are paths or stand for a tab. -/
def keys (block : Block) : List String :=
  ((block.scan.tokens.map (·.key)).filter fun key ↦ key == tabKey || isPath key).map String.ofList

/-- Fills the placeholders of a paragraph in a scope, the last one first, and counts them. -/
def substitute? (scope : Scope) (block : Block) : Option (Block × Tally) := do
  let tally := { Tally.zero with unterminated := block.scan.opened.isSome }
  let (leaves, tally) ← block.scan.tokens.foldrM (fillToken? scope) (block.leaves, tally)
  some ({ block with leaves := leaves }, tally)

-- There always is a result, as every place that a scan finds is between two characters.
/-- A paragraph with its placeholders filled in a scope. -/
def fill (scope : Scope) (block : Block) : Block :=
  ((block.substitute? scope).map Prod.fst).getD block

/-- How the placeholders of a paragraph are filled in a scope. -/
def tally (scope : Scope) (block : Block) : Tally :=
  ((block.substitute? scope).map Prod.snd).getD .zero

end Block

end LoanClosing
