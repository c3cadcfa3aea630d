import LoanClosing.Proofs.Expansion.Passes
import LoanClosing.Proofs.Placeholder.Joined
import Mathlib.Data.List.Forall2

/-!
# Text in fragments

Processing does not see how the text of a paragraph is split into leaves. Joining the leaves of
every paragraph first gives the same markers, parts, passes and counts, and what comes out is what
would come out otherwise with its leaves joined. The passes stop when nothing changes any more,
leaves and formatting included; that, too, happens for the joined paragraphs at the same pass.
-/

namespace LoanClosing

namespace Marker

@[simp] theorem opens_joined (block : Block) : opens block.joined = opens block := by
  rw [opens, opens, ofBlock?_joined]

/-- Joining leaves the number of markers as it is. -/
theorem count_map_joined (blocks : List Block) :
    count (blocks.map Block.joined) = count blocks := by
  have hf : (fun block ↦ (ofBlock? block).isSome) ∘ Block.joined =
      fun block ↦ (ofBlock? block).isSome := by
    funext block
    simp
  rw [count, count, List.countP_map, hf]

/-- Joining leaves every closer in its place. -/
theorem closerFrom?_map_joined (opener : Marker) (depth : Nat) (blocks : List Block) :
    closerFrom? opener depth (blocks.map Block.joined) = closerFrom? opener depth blocks := by
  induction blocks generalizing depth with
  | nil => rfl
  | cons block blocks ih =>
    rw [List.map_cons, closerFrom?, closerFrom?, ofBlock?_joined]
    cases depthAfter opener depth (ofBlock? block) with
    | none => rfl
    | some next => simp only [ih]

end Marker

namespace Expansion

/-- An expansion with the leaves of its paragraphs joined. -/
def joined (expansion : Expansion) : Expansion :=
  { expansion with blocks := expansion.blocks.map Block.joined }

@[simp] theorem aborted_joined (expansion : Expansion) :
    expansion.joined.aborted = expansion.aborted := rfl
@[simp] theorem tally_joined (expansion : Expansion) :
    expansion.joined.tally = expansion.tally := rfl

theorem joined_append (first rest : Expansion) :
    (first.append rest).joined = first.joined.append rest.joined := by
  simp [joined, append]

theorem joined_stopped (blocks : List Block) (tally : Placeholder.Tally) :
    (stopped blocks tally).joined = stopped (blocks.map Block.joined) tally := rfl

theorem joined_cons (block : Block) (tally : Placeholder.Tally) (rest : Expansion) :
    (rest.cons block tally).joined = rest.joined.cons block.joined tally := rfl

/-- A paragraph that opens nothing becomes the same when it is joined first. -/
theorem ofLoose_joined (fills : Bool) (scope : Scope) (block : Block) :
    ofLoose fills scope block.joined =
      ((ofLoose fills scope block).1.joined, (ofLoose fills scope block).2) := by
  rw [ofLoose, ofLoose, Marker.ofBlock?_joined]
  split
  · rfl
  · cases fills <;> simp [ofPlain]

/-- A part repeated for every item is joined by joining each repetition. -/
theorem forItems_joined (expand : Value → Expansion) (items : List Value) :
    forItems (fun item ↦ (expand item).joined) items = (forItems expand items).joined := by
  induction items with
  | nil => rfl
  | cons item items ih =>
    simp only [forItems, ih, aborted_joined]
    split
    · rfl
    · rw [joined_append]

/-- What a part becomes is joined by joining the part. -/
theorem ofPart_joined (expand : Scope → Expansion) (scope : Scope) (marker : Marker) :
    ofPart (fun scope ↦ (expand scope).joined) scope marker =
      (ofPart expand scope marker).joined := by
  cases marker with
  | ifThen condition =>
    simp only [ofPart]
    split
    · rfl
    · rfl
  | forEach item source => exact forItems_joined (fun value ↦ expand (scope.withItem item value)) _
  | endIf => rfl
  | endForEach => rfl

end Expansion

/-- Expanding joined paragraphs is joining what the paragraphs expand to. -/
theorem expand_map_joined (fills : Bool) (blocks : List Block) (scope : Scope) :
    expand fills (blocks.map Block.joined) scope = (expand fills blocks scope).joined := by
  induction blocks using Marker.induction_on_parts generalizing scope with
  | nil => rw [List.map_nil, expand_nil]; rfl
  | loose block rest hl ih =>
    have hl' : Marker.opens block.joined = false := by rw [Marker.opens_joined, hl]
    rw [List.map_cons, expand_loose hl', expand_loose hl, ih, Expansion.ofLoose_joined,
      Expansion.joined_cons]
  | unclosed block rest marker hm ho hc =>
    have hm' : Marker.ofBlock? block.joined = some marker := by rw [Marker.ofBlock?_joined, hm]
    have hc' : marker.closer? (rest.map Block.joined) = none := by
      rw [Marker.closer?, Marker.closerFrom?_map_joined]
      exact hc
    rw [List.map_cons, expand_unclosed hm' ho hc', expand_unclosed hm ho hc,
      Expansion.joined_stopped, List.map_cons]
  | closed block body closer after marker hm ho hc ihb iha =>
    have hm' : Marker.ofBlock? block.joined = some marker := by rw [Marker.ofBlock?_joined, hm]
    have hc' : marker.closer? (body.map Block.joined ++ closer.joined :: after.map Block.joined) =
        some (body.map Block.joined).length := by
      rw [← List.map_cons, ← List.map_append, Marker.closer?, Marker.closerFrom?_map_joined,
        List.length_map]
      exact hc
    have hb : expand fills (body.map Block.joined) = fun scope ↦ (expand fills body scope).joined :=
      funext ihb
    rw [List.map_cons, List.map_append, List.map_cons, expand_closed hm' ho hc',
      expand_closed hm ho hc, hb, Expansion.ofPart_joined, iha]
    cases ha : (Expansion.ofPart (expand fills body) scope marker).aborted with
    | true => simp [ha, Expansion.joined_stopped]
    | false => simp [ha, Expansion.joined_append]

/-- A pass over joined paragraphs leaves what it leaves otherwise, joined. -/
theorem pass_map_joined (scope : Scope) (blocks : List Block) :
    pass scope (blocks.map Block.joined) = (pass scope blocks).map Block.joined := by
  rw [pass, expand_map_joined]
  rfl

/-- A pass that leaves all texts as they are leaves the paragraphs as they are: where it stops
nothing changes, and before that no paragraph opens a part, since none that is left does. -/
theorem pass_eq_of_map_joined_eq {scope : Scope} {blocks : List Block}
    (h : (pass scope blocks).map Block.joined = blocks.map Block.joined) :
    pass scope blocks = blocks := by
  obtain ⟨done, rest, rfl, he, hl, -⟩ := exists_pass_eq scope blocks
  rw [he, List.map_append, List.map_append, List.append_cancel_right_eq] at h
  have hd : ∀ block ∈ done, Marker.opens block = false := by
    intro block hb
    have hj : block.joined ∈ done.map Block.joined := List.mem_map_of_mem hb
    rw [← h] at hj
    obtain ⟨other, ho, hs⟩ := List.mem_map.mp hj
    rw [← Marker.opens_joined, ← hs, Marker.opens_joined]
    exact hl other ho
  rw [he, pass_of_loose hd]

namespace Processor

/-- The passes over joined paragraphs stop where they stop otherwise. -/
theorem extraPasses_map_joined (scope : Scope) (passes : Nat) (blocks : List Block) :
    extraPasses scope passes (blocks.map Block.joined) =
      ((extraPasses scope passes blocks).1,
        (extraPasses scope passes blocks).2.map Block.joined) := by
  induction passes generalizing blocks with
  | zero => rfl
  | succ passes ih =>
    have hp : (expand false (blocks.map Block.joined) scope).blocks =
        (expand false blocks scope).blocks.map Block.joined := pass_map_joined scope blocks
    rw [extraPasses, extraPasses, Marker.count_map_joined, hp]
    split
    · rfl
    · by_cases hs : (expand false blocks scope).blocks = blocks
      · simp only [hs, if_true]
      · have hj : (expand false blocks scope).blocks.map Block.joined ≠ blocks.map Block.joined :=
          fun he ↦ hs (pass_eq_of_map_joined_eq he)
        simp only [hs, hj, if_false, ih]

end Processor

namespace Container

/-- A container with the leaves of its paragraphs joined. -/
def joined (container : Container) : Container :=
  { container with blocks := container.blocks.map Block.joined }

/-- Two containers have the same name, equally many paragraphs, and the same text in each. -/
def SameText (container other : Container) : Prop :=
  container.name = other.name ∧ container.plainLines = other.plainLines

/-- The texts of joined paragraphs. -/
theorem plainLines_joined (container : Container) :
    container.joined.plainLines = container.plainLines := by
  rw [plainLines, plainLines, joined, List.map_map]
  apply List.map_congr_left
  intro block _
  simp [Block.plainText]

/-- Containers with the same text are those that are the same when joined. -/
theorem joined_eq_iff {container other : Container} :
    container.joined = other.joined ↔ container.SameText other := by
  constructor
  · intro h
    have hn : container.joined.name = other.joined.name := by rw [h]
    refine ⟨hn, ?_⟩
    rw [← plainLines_joined, h, plainLines_joined]
  · rintro ⟨hn, hl⟩
    have hb : ∀ container : Container,
        container.blocks.map Block.joined = container.plainLines.map Block.ofText := by
      intro container
      rw [plainLines, List.map_map]
      rfl
    rw [joined, joined, hb, hb, hn, hl]

/-- Lists of containers with the same text are those that are the same when joined. -/
theorem map_joined_eq_iff {containers others : List Container} :
    containers.map joined = others.map joined ↔ List.Forall₂ SameText containers others := by
  rw [← List.forall₂_eq_eq_eq, List.forall₂_map_left_iff, List.forall₂_map_right_iff]
  simp only [joined_eq_iff]

end Container

namespace Processor

/-- Processing a joined container gives the joined result and the same report. -/
theorem processContainer_joined (processor : Processor) (scope : Scope) (container : Container) :
    processor.processContainer scope container.joined =
      ((processor.processContainer scope container).1.joined,
        (processor.processContainer scope container).2) := by
  have hk : ∀ blocks : List Block,
      (blocks.map Block.joined).flatMap Block.keys = blocks.flatMap Block.keys := by
    intro blocks
    rw [List.flatMap_map]
    apply List.flatMap_congr
    intro block _
    simp
  simp only [processContainer, Container.joined, expand_map_joined, Expansion.joined,
    extraPasses_map_joined, Marker.count_map_joined, hk]

/-- Processing joined containers gives the joined results and the same report. -/
theorem process_map_joined (processor : Processor) (containers : List Container) (model : Value) :
    processor.process (containers.map Container.joined) model =
      ((processor.process containers model).1.map Container.joined,
        (processor.process containers model).2) := by
  simp only [process, List.map_map, Prod.mk.injEq, Report.mk.injEq]
  constructor
  · apply List.map_congr_left
    intro container _
    simp [processContainer_joined]
  · apply List.map_congr_left
    intro container _
    simp [processContainer_joined]

end Processor

/-- The text of a document is that of its containers joined. -/
theorem Document.plainText_joined (name : String) (containers : List Container) :
    plainText ⟨name, containers.map Container.joined⟩ = plainText ⟨name, containers⟩ := by
  rw [plainText, plainText, List.filter_map, List.map_map]
  congr 1
  have hf : (fun container : Container ↦ !container.blocks.isEmpty) ∘ Container.joined =
      fun container ↦ !container.blocks.isEmpty := by
    funext container
    simp [Container.joined]
  rw [hf]
  apply List.map_congr_left
  intro container _
  simp [Container.plainLines_joined]

/-- Containers that hold the same text, however it is split into leaves and formatted, are processed
to containers that hold the same text, with the same report; so the text of the document is the
same, too. -/
theorem process_of_sameText (processor : Processor) (model : Value)
    {containers others : List Container}
    (h : List.Forall₂ Container.SameText containers others) :
    List.Forall₂ Container.SameText (processor.process containers model).1
        (processor.process others model).1 ∧
      (processor.process containers model).2 = (processor.process others model).2 ∧
      ∀ name, Document.plainText ⟨name, (processor.process containers model).1⟩ =
        Document.plainText ⟨name, (processor.process others model).1⟩ := by
  have hj : containers.map Container.joined = others.map Container.joined :=
    Container.map_joined_eq_iff.mpr h
  have hc := processor.process_map_joined containers model
  rw [hj, processor.process_map_joined others model, Prod.mk.injEq] at hc
  refine ⟨Container.map_joined_eq_iff.mp hc.1.symm, hc.2.symm, ?_⟩
  intro name
  rw [← Document.plainText_joined, ← hc.1, Document.plainText_joined]

/-- Markers and a placeholder that are split, with formatting and empty leaves in between, are
processed as the same text in one piece is. -/
theorem process_of_sameText_split :
    let whole : List Container :=
      [⟨"body", [.ofText "IF Loan.Paid", .ofText "\x7bLoan.Name\x7d!", .ofText "ENDIF"]⟩]
    let split : List Container :=
      [⟨"body",
        [⟨[.plain "I", ⟨"F Loan", .bool true⟩, .plain "", .plain ".Paid"], .null⟩,
          ⟨[.plain "\x7bLoan.", ⟨"Na", .text "bold"⟩, .plain "me\x7d!"], .bool false⟩,
          ⟨[.plain "", .plain "ENDIF", .plain ""], .null⟩]⟩]
    let model : Value := .object [("Paid", .bool true), ("Name", .text "Ada")]
    List.Forall₂ Container.SameText whole split ∧
      List.Forall₂ Container.SameText (Processor.default.process whole model).1
        (Processor.default.process split model).1 ∧
      (Processor.default.process whole model).2 = (Processor.default.process split model).2 := by
  intro whole split model
  have h : List.Forall₂ Container.SameText whole split := .cons ⟨rfl, by decide⟩ .nil
  obtain ⟨hs, hr, -⟩ := process_of_sameText .default model h
  exact ⟨h, hs, hr⟩

end LoanClosing
