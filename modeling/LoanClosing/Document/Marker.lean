import LoanClosing.Document.Basic
import LoanClosing.Text.Ascii

/-!
# Markers

A paragraph that says nothing but `IF` and a condition, or `FOREACH` a variable `in` a path, opens a
part of a document; `ENDIF` and `ENDFOREACH` close it. A marker is recognised by its words, however
they are spread over the leaves of the paragraph. The closer of an opener is the first of its kind
after it, openers of the same kind in between being closed first.
-/

namespace LoanClosing

/-- What a marker says. -/
inductive Marker where
  | ifThen (condition : String)
  | endIf
  | forEach (item source : String)
  | endForEach
  deriving DecidableEq, Repr

namespace Marker

/-- Whether a marker opens a part. -/
def isOpening : Marker → Bool
  | .ifThen _ | .forEach .. => true
  | .endIf | .endForEach => false

/-- Whether a marker opens a part of the same kind. -/
def opensLike : Marker → Marker → Bool
  | .ifThen _, .ifThen _ | .forEach .., .forEach .. => true
  | _, _ => false

/-- Whether a marker closes a part that another one opens. -/
def closes : Marker → Marker → Bool
  | .endIf, .ifThen _ | .endForEach, .forEach .. => true
  | _, _ => false

/-- Reads `IF` and a condition on one line. -/
def readIf? : List Char → Option Marker
  | 'I' :: 'F' :: cs =>
    let gap := cs.takeWhile Text.isBlank
    match cs.dropWhile Text.isBlank with
    | [] => if 2 ≤ gap.length ∧ gap.getLast? ≠ some '\n' then some (.ifThen "") else none
    | rest =>
      if gap.isEmpty || rest.contains '\n' then none
      else some (.ifThen (String.ofList (Text.trimEnd rest)))
  | _ => none

/-- Reads `FOREACH`, a variable, `in` in any case and a path, with blanks between two of them. -/
def readForEach? : List Char → Option Marker
  | 'F' :: 'O' :: 'R' :: 'E' :: 'A' :: 'C' :: 'H' :: cs => do
    let cs ← Text.afterBlanks? cs
    let (item, cs) ← Text.identifierAtFront? cs
    match ← Text.afterBlanks? cs with
    | i :: n :: cs =>
      let source ← Text.afterBlanks? cs
      if i.toLower = 'i' ∧ n.toLower = 'n' ∧ Text.isDottedName source = true then
        some (.forEach (String.ofList item) (String.ofList source))
      else none
    | _ => none
  | _ => none

/-- Reads a marker. -/
def read? (text : String) : Option Marker :=
  if text = "ENDIF" then some .endIf
  else if text = "ENDFOREACH" then some .endForEach
  else (readForEach? text.toList).or (readIf? text.toList)

/-- The marker that a paragraph is. -/
def ofBlock? (block : Block) : Option Marker := read? block.normalizedText

/-- The number of paragraphs that are markers. -/
def count (blocks : List Block) : Nat := blocks.countP fun block ↦ (ofBlock? block).isSome

/-- The number of openers of the same kind still to be closed first, after one more paragraph with
the given marker; none when it closes the opener itself. -/
def depthAfter (opener : Marker) (depth : Nat) : Option Marker → Option Nat
  | none => some depth
  | some marker =>
    if marker.opensLike opener then some (depth + 1)
    else if marker.closes opener then (if depth = 0 then none else some (depth - 1))
    else some depth

/-- The place of the closer of an opener among the paragraphs after it, with the given number of
openers of the same kind still to be closed first. -/
def closerFrom? (opener : Marker) (depth : Nat) : List Block → Option Nat
  | [] => none
  | block :: blocks =>
    match depthAfter opener depth (ofBlock? block) with
    | none => some 0
    | some depth => (closerFrom? opener depth blocks).map (· + 1)

/-- The place of the closer of an opener among the paragraphs after it. -/
def closer? (opener : Marker) (blocks : List Block) : Option Nat := closerFrom? opener 0 blocks

/-- The place of the closer of the opener that stands at a place of a list. -/
def terminator? (blocks : List Block) (place : Nat) (opener : Marker) : Option Nat :=
  (closer? opener (blocks.drop (place + 1))).map (· + (place + 1))

/-- The closer is one of the paragraphs. -/
theorem lt_length_of_closerFrom? {opener : Marker} {depth n : Nat} {blocks : List Block}
    (h : closerFrom? opener depth blocks = some n) : n < blocks.length := by
  induction blocks generalizing depth n with
  | nil => simp [closerFrom?] at h
  | cons block blocks ih =>
    unfold closerFrom? at h
    split at h
    · simp only [Option.some.injEq] at h
      subst h
      simp
    · obtain ⟨m, hm, rfl⟩ := Option.map_eq_some_iff.1 h
      have := ih hm
      simp only [List.length_cons]
      omega

end Marker

end LoanClosing
