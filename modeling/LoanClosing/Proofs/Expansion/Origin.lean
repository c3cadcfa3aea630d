import LoanClosing.Proofs.Expansion.Passes
import LoanClosing.Proofs.Placeholder.Joined
import Mathlib.Data.List.Forall2

/-!
# Where a paragraph comes from

Every paragraph that processing leaves comes from one paragraph of the template: it is that
paragraph as written, or that paragraph with its placeholders filled once, in the scope of the loops
around it. Passes after the first expansion write nothing; they keep, drop and repeat paragraphs. So
what filling puts into a paragraph is never read as a template again.
-/

namespace LoanClosing

/-- The scopes inside the loops of a scope, the scope itself included: each loop binds a name to an
item of a list that a path leads to. -/
inductive Scope.Encloses (outer : Scope) : Scope → Prop where
  | self : Encloses outer outer
  | loop {inner : Scope} (h : Encloses outer inner) (name source : String) {item : Value}
    (hi : item ∈ inner.resolveItems source) : Encloses outer (inner.withItem name item)

namespace Scope.Encloses

variable {outer middle inner : Scope}

/-- Loops inside of loops. -/
theorem trans (ho : Encloses outer middle) (hi : Encloses middle inner) : Encloses outer inner := by
  induction hi with
  | self => exact ho
  | loop _ name source hm ih => exact ih.loop name source hm

/-- Loops only add frames. -/
theorem exists_frames (h : Encloses outer inner) :
    ∃ frames, inner = { outer with frames := frames ++ outer.frames } := by
  induction h with
  | self => exact ⟨[], rfl⟩
  | @loop _ _ name source item _ ih =>
    obtain ⟨frames, rfl⟩ := ih
    exact ⟨(name, item) :: frames, rfl⟩

end Scope.Encloses

namespace Block

/-- Two paragraphs have the same formatting, and equally many leaves with the same formatting. -/
def SameFormat (block other : Block) : Prop :=
  block.format = other.format ∧ block.leaves.length = other.leaves.length ∧
    block.leaves.map (·.format) = other.leaves.map (·.format)

theorem SameFormat.refl (block : Block) : block.SameFormat block := ⟨rfl, rfl, rfl⟩

/-- Other texts, one for each leaf, leave the formatting as it is. -/
theorem sameFormat_withTexts (block : Block) {texts : List (List Char)}
    (h : texts.length = block.leaves.length) : (block.withTexts texts).SameFormat block := by
  refine ⟨rfl, ?_, ?_⟩
  · simp [withTexts, h]
  · obtain ⟨leaves, format⟩ := block
    simp only [withTexts] at h ⊢
    induction leaves generalizing texts with
    | nil => rfl
    | cons leaf leaves ih =>
      cases texts with
      | nil => simp at h
      | cons cs texts =>
        rw [List.zipWith_cons_cons, List.map_cons, List.map_cons, ih (by simpa using h)]

/-- Filling a paragraph leaves its formatting as it is. -/
theorem sameFormat_fill (scope : Scope) (block : Block) : (block.fill scope).SameFormat block := by
  rw [fill_eq]
  obtain ⟨leaves, format⟩ := block
  cases leaves with
  | nil => exact ⟨rfl, rfl, rfl⟩
  | cons leaf leaves => exact sameFormat_withTexts _ (length_texts_fill scope leaf leaves format)

/-- A paragraph is another one that is no marker, filled once in a scope or inside its loops. -/
def FilledFrom (scope : Scope) (source block : Block) : Prop :=
  Marker.ofBlock? source = none ∧ ∃ inner, scope.Encloses inner ∧ block = source.fill inner

/-- What is filled inside a loop is filled inside the loops of the scope around it. -/
theorem FilledFrom.of_encloses {outer inner : Scope} {source block : Block}
    (he : outer.Encloses inner) (h : FilledFrom inner source block) :
    FilledFrom outer source block := by
  obtain ⟨hs, scope, hi, rfl⟩ := h
  exact ⟨hs, scope, he.trans hi, rfl⟩

end Block

namespace Expansion

/-- Every paragraph of an expansion is one of the given paragraphs, which is then a marker unless
nothing is filled or the expansion was stopped; or one of them, filled. -/
def ComesFrom (fills : Bool) (scope : Scope) (sources : List Block) (expansion : Expansion) :
    Prop :=
  ∀ block ∈ expansion.blocks,
    (block ∈ sources ∧
      (fills = true → expansion.aborted = false → (Marker.ofBlock? block).isSome = true)) ∨
    (fills = true ∧ ∃ source ∈ sources, Block.FilledFrom scope source block)

variable {fills : Bool} {scope : Scope} {sources more : List Block}

theorem comesFrom_empty (fills : Bool) (scope : Scope) (sources : List Block) :
    ComesFrom fills scope sources empty := by
  intro block hb
  simp at hb

/-- A stopped expansion leaves the paragraphs themselves. -/
theorem comesFrom_stopped (fills : Bool) (scope : Scope) (sources : List Block)
    (tally : Placeholder.Tally) : ComesFrom fills scope sources (stopped sources tally) := by
  intro block hb
  exact .inl ⟨hb, fun _ ha ↦ by simp at ha⟩

/-- More paragraphs to come from. -/
theorem ComesFrom.mono {expansion : Expansion} (h : ComesFrom fills scope sources expansion)
    (hs : sources ⊆ more) : ComesFrom fills scope more expansion := by
  intro block hb
  cases h block hb with
  | inl h => exact .inl ⟨hs h.1, h.2⟩
  | inr h =>
    obtain ⟨hf, source, hm, hl⟩ := h
    exact .inr ⟨hf, source, hs hm, hl⟩

/-- What comes from paragraphs inside a loop comes from them in the scope around it. -/
theorem ComesFrom.of_encloses {inner : Scope} {expansion : Expansion} (he : scope.Encloses inner)
    (h : ComesFrom fills inner sources expansion) : ComesFrom fills scope sources expansion := by
  intro block hb
  cases h block hb with
  | inl h => exact .inl h
  | inr h =>
    obtain ⟨hf, source, hm, hl⟩ := h
    exact .inr ⟨hf, source, hm, hl.of_encloses he⟩

/-- Two expansions that come from the same paragraphs, the first of which was not stopped. -/
theorem ComesFrom.append {first rest : Expansion} (hf : ComesFrom fills scope sources first)
    (ha : first.aborted = false) (hr : ComesFrom fills scope sources rest) :
    ComesFrom fills scope sources (first.append rest) := by
  intro block hb
  rw [blocks_append, List.mem_append] at hb
  cases hb with
  | inl hb =>
    cases hf block hb with
    | inl h => exact .inl ⟨h.1, fun hl _ ↦ h.2 hl ha⟩
    | inr h => exact .inr h
  | inr hb => exact hr block hb

/-- What becomes of a paragraph that opens nothing comes from it. -/
theorem ComesFrom.cons_ofLoose {rest : Expansion} {block : Block}
    (hr : ComesFrom fills scope sources rest) :
    ComesFrom fills scope (block :: sources)
      (rest.cons (ofLoose fills scope block).1 (ofLoose fills scope block).2) := by
  intro other hb
  rw [blocks_cons, List.mem_cons] at hb
  cases hb with
  | inr hb => exact hr.mono (List.subset_cons_self block sources) other hb
  | inl hb =>
    subst hb
    cases hm : Marker.ofBlock? block with
    | some marker =>
      -- A closer stays as it is, whether placeholders are filled or not.
      refine .inl ⟨by simp [ofLoose, hm], fun _ _ ↦ ?_⟩
      simp [ofLoose, hm]
    | none =>
      cases fills with
      | false => exact .inl ⟨by simp, fun hf ↦ by simp at hf⟩
      | true =>
        refine .inr ⟨rfl, block, List.mem_cons_self, hm, scope, .self, ?_⟩
        simp [ofLoose, hm, ofPlain]

/-- A part repeated for every item comes from the paragraphs that each repetition comes from. -/
theorem comesFrom_forItems {expand : Value → Expansion} {items : List Value}
    (h : ∀ item ∈ items, ComesFrom fills scope sources (expand item)) :
    ComesFrom fills scope sources (forItems expand items) := by
  induction items with
  | nil => exact comesFrom_empty fills scope sources
  | cons item items ih =>
    have hf := h item List.mem_cons_self
    have hr := ih fun other ho ↦ h other (List.mem_cons_of_mem item ho)
    simp only [forItems]
    split
    · exact hf
    · next ha => exact hf.append (by simpa using ha) hr

/-- What a part becomes comes from its paragraphs, if it does so in every scope. -/
theorem comesFrom_ofPart {expand : Scope → Expansion}
    (h : ∀ scope, ComesFrom fills scope sources (expand scope)) (scope : Scope) (marker : Marker) :
    ComesFrom fills scope sources (ofPart expand scope marker) := by
  cases marker with
  | ifThen condition =>
    simp only [ofPart]
    split
    · exact h scope
    · exact comesFrom_empty fills scope sources
  | forEach item source =>
    apply comesFrom_forItems
    intro value hv
    exact (h (scope.withItem item value)).of_encloses (.loop .self item source hv)
  | endIf => exact comesFrom_empty fills scope sources
  | endForEach => exact comesFrom_empty fills scope sources

end Expansion

/-- What paragraphs expand to comes from them. -/
theorem comesFrom_expand (fills : Bool) (blocks : List Block) (scope : Scope) :
    (expand fills blocks scope).ComesFrom fills scope blocks := by
  induction blocks using Marker.induction_on_parts generalizing scope with
  | nil =>
    rw [expand_nil]
    exact Expansion.comesFrom_empty fills scope []
  | loose block rest hl ih =>
    rw [expand_loose hl]
    exact (ih scope).cons_ofLoose
  | unclosed block rest marker hm ho hc =>
    rw [expand_unclosed hm ho hc]
    exact Expansion.comesFrom_stopped fills scope _ _
  | closed block body closer after marker hm ho hc ihb iha =>
    have hb : body ⊆ block :: (body ++ closer :: after) := by
      intro other h
      simp [h]
    have ha : after ⊆ block :: (body ++ closer :: after) := by
      intro other h
      simp [h]
    rw [expand_closed hm ho hc]
    dsimp only
    split
    · exact Expansion.comesFrom_stopped fills scope _ _
    · next hn =>
      exact ((Expansion.comesFrom_ofPart ihb scope marker).mono hb).append (by simpa using hn)
        ((iha scope).mono ha)

/-- A pass leaves none but the paragraphs it is given. -/
theorem mem_of_mem_pass {scope : Scope} {blocks : List Block} {block : Block}
    (h : block ∈ pass scope blocks) : block ∈ blocks := by
  cases comesFrom_expand false blocks scope block h with
  | inl h => exact h.1
  | inr h => simp at h

namespace Processor

/-- Passes leave none but the paragraphs they are given. -/
theorem mem_of_mem_extraPasses {scope : Scope} {passes : Nat} {blocks : List Block} {block : Block}
    (h : block ∈ (extraPasses scope passes blocks).2) : block ∈ blocks := by
  cases passes with
  | zero => exact h
  | succ passes =>
    rw [extraPasses_blocks] at h
    exact mem_of_mem_pass h

/-- A processed container holds none but paragraphs of its first expansion. -/
theorem mem_expand_of_mem_processContainer {processor : Processor} {scope : Scope}
    {container : Container} {block : Block}
    (h : block ∈ (processor.processContainer scope container).1.blocks) :
    block ∈ (expand true container.blocks scope).blocks :=
  mem_of_mem_extraPasses h

/-- Each paragraph of a processed container comes from one paragraph of the container, with the same
formatting: it is that paragraph as written, or that paragraph, which is then no marker, filled once
in the outermost scope with the frames of some loops. Containers keep their names and order. The
passes after the first expansion leave none but the paragraphs they are given, so they change no
text and fill nothing. -/
theorem process_origin (processor : Processor) (containers : List Container) (model : Value) :
    let scope := Scope.outermost processor.rootName model
    List.Forall₂ (fun container processed ↦
        processed.name = container.name ∧
          (∀ block ∈ processed.blocks, block ∈ (expand true container.blocks scope).blocks) ∧
          ∀ block ∈ processed.blocks, ∃ source ∈ container.blocks, block.SameFormat source ∧
            (block = source ∨
              Marker.ofBlock? source = none ∧ ∃ frames,
                scope.Encloses { scope with frames := frames } ∧
                  block = source.fill { scope with frames := frames }))
      containers (processor.process containers model).1 ∧
    ∀ (inner : Scope) (passes : Nat) (blocks : List Block),
      ∀ block ∈ (extraPasses inner passes blocks).2, block ∈ blocks := by
  intro scope
  refine ⟨?_, fun _ _ _ _ hb ↦ mem_of_mem_extraPasses hb⟩
  simp only [process, List.map_map, List.forall₂_map_right_iff]
  apply List.forall₂_same.mpr
  intro container _
  refine ⟨rfl, fun block hb ↦ mem_expand_of_mem_processContainer hb, fun block hb ↦ ?_⟩
  cases comesFrom_expand true container.blocks scope block
    (mem_expand_of_mem_processContainer hb) with
  | inl h => exact ⟨block, h.1, .refl block, .inl rfl⟩
  | inr h =>
    obtain ⟨-, source, hs, hm, inner, he, rfl⟩ := h
    obtain ⟨frames, rfl⟩ := he.exists_frames
    exact ⟨source, hs, source.sameFormat_fill _, .inr ⟨hm, _, he, rfl⟩⟩

end Processor

end LoanClosing
