import LoanClosing.Condition.Parser
import LoanClosing.Document.Marker
import LoanClosing.Document.Substitution

/-!
# Expansion

Expanding a list of paragraphs keeps the part that an `IF` opens when its condition holds, repeats
the part that a `FOREACH` opens for each item, and fills the placeholders of all other paragraphs.
A closer without an opener stays. When an opener has no closer, at any depth, expansion stops: the
outermost opener at that place and all that follows stay as written.
-/

namespace LoanClosing

/-- The outcome of expanding paragraphs. -/
structure Expansion where
  blocks : List Block
  /-- Whether an opener without a closer stopped the expansion. -/
  aborted : Bool
  /-- What was filled on the way, in parts given up later too. -/
  tally : Placeholder.Tally
  deriving DecidableEq, Repr

namespace Expansion

/-- Nothing expanded. -/
def empty : Expansion := ⟨[], false, .zero⟩

/-- An expansion stopped in front of paragraphs that stay as written. -/
def stopped (blocks : List Block) (tally : Placeholder.Tally) : Expansion := ⟨blocks, true, tally⟩

/-- One paragraph in front of an expansion. -/
def cons (block : Block) (tally : Placeholder.Tally) (rest : Expansion) : Expansion :=
  ⟨block :: rest.blocks, rest.aborted, tally.add rest.tally⟩

/-- One expansion in front of another. -/
def append (first rest : Expansion) : Expansion :=
  ⟨first.blocks ++ rest.blocks, rest.aborted, first.tally.add rest.tally⟩

/-- One expansion after another for every item, up to the first that is stopped. -/
def forItems (expand : Value → Expansion) : List Value → Expansion
  | [] => empty
  | item :: items =>
    let first := expand item
    if first.aborted then first else first.append (forItems expand items)

/-- What the part that an opener opens becomes: left out, kept or repeated. -/
def ofPart (expand : Scope → Expansion) (scope : Scope) : Marker → Expansion
  | .ifThen condition => if Condition.holds scope condition then expand scope else empty
  | .forEach item source =>
    forItems (fun value ↦ expand (scope.withItem item value)) (scope.resolveItems source)
  | .endIf | .endForEach => empty

/-- A paragraph that is no marker. -/
def ofPlain (fills : Bool) (scope : Scope) (block : Block) : Block × Placeholder.Tally :=
  if fills then (block.fill scope, block.tally scope) else (block, .zero)

end Expansion

/-- Expands paragraphs in a scope; `fills` says whether placeholders are filled. -/
def expand (fills : Bool) (blocks : List Block) (scope : Scope) : Expansion :=
  match blocks with
  | [] => .empty
  | block :: rest =>
    match Marker.ofBlock? block with
    | none =>
      let (block, tally) := Expansion.ofPlain fills scope block
      (expand fills rest scope).cons block tally
    | some marker =>
      if marker.isOpening then
        match h : marker.closer? rest with
        | none => .stopped (block :: rest) .zero
        | some n =>
          have := Marker.lt_length_of_closerFrom? h
          let part := Expansion.ofPart (expand fills (rest.take n)) scope marker
          if part.aborted then .stopped (block :: rest) part.tally
          else part.append (expand fills (rest.drop (n + 1)) scope)
      else (expand fills rest scope).cons block .zero
termination_by blocks.length
decreasing_by all_goals simp only [List.length_cons, List.length_take, List.length_drop]; omega

end LoanClosing
