import LoanClosing.Proofs.Expansion.Concat

/-!
# Outlines

A document in which every opener has its closer has an outline: a tree of paragraphs and of the
parts that openers and closers enclose. Expansion, which sees only the list of paragraphs and finds
closers by counting, does to that list what the outline says: it keeps a part or leaves it out,
repeats a part for each item, and drops the markers themselves.
-/

namespace LoanClosing

/-- A paragraph that is no marker, or a part between an opener and its closer. -/
inductive Outline where
  | plain (block : Block) (noMarker : Marker.ofBlock? block = none)
  | ifThen (condition : String) (opener : Block) (body : List Outline) (closer : Block)
      (opens : Marker.ofBlock? opener = some (.ifThen condition))
      (closes : Marker.ofBlock? closer = some .endIf)
  | forEach (item source : String) (opener : Block) (body : List Outline) (closer : Block)
      (opens : Marker.ofBlock? opener = some (.forEach item source))
      (closes : Marker.ofBlock? closer = some .endForEach)

namespace Outline

mutual

/-- The paragraphs of an outline, in order. -/
def flatten : Outline → List Block
  | .plain block _ => [block]
  | .ifThen _ opener body closer _ _ => opener :: (flattenAll body ++ [closer])
  | .forEach _ _ opener body closer _ _ => opener :: (flattenAll body ++ [closer])

/-- The paragraphs of outlines, in order. -/
def flattenAll : List Outline → List Block
  | [] => []
  | outline :: outlines => flatten outline ++ flattenAll outlines

end

mutual

/-- What an outline says in a scope; `fills` says whether placeholders are filled. -/
def meaning (fills : Bool) : Outline → Scope → List Block
  | .plain block _, scope => [if fills then block.fill scope else block]
  | .ifThen condition _ body _ _ _, scope =>
    if Condition.holds scope condition then meaningAll fills body scope else []
  | .forEach item source _ body _ _ _, scope =>
    (scope.resolveItems source).flatMap fun value ↦
      meaningAll fills body (scope.withItem item value)

/-- What outlines say in a scope, one after another. -/
def meaningAll (fills : Bool) : List Outline → Scope → List Block
  | [], _ => []
  | outline :: outlines, scope => meaning fills outline scope ++ meaningAll fills outlines scope

end

mutual

/-- The paragraphs of an outline that are no markers. -/
def plains : Outline → List Block
  | .plain block _ => [block]
  | .ifThen _ _ body _ _ _ => plainsAll body
  | .forEach _ _ _ body _ _ _ => plainsAll body

/-- The paragraphs of outlines that are no markers. -/
def plainsAll : List Outline → List Block
  | [] => []
  | outline :: outlines => plains outline ++ plainsAll outlines

end

end Outline

/-! ### The search for a closer passes over whole parts -/

namespace Marker

/-- The search for the closer of an opener comes out of these paragraphs as it went in. -/
def Balanced (opener : Marker) (blocks : List Block) : Prop :=
  ∀ depth rest, closerFrom? opener depth (blocks ++ rest) =
    (closerFrom? opener depth rest).map (· + blocks.length)

variable {opener marker closing : Marker} {depth : Nat}

/-- A paragraph that leaves the count as it is. -/
theorem closerFrom?_cons {next : Nat} {block : Block}
    (h : depthAfter opener depth (ofBlock? block) = some next) (blocks : List Block) :
    closerFrom? opener depth (block :: blocks) =
      (closerFrom? opener next blocks).map (· + 1) := by
  simp only [closerFrom?, h]

/-- What an opener adds to the count, its own closer takes away; the other kind counts nothing. -/
theorem depthAfter_part (ho : marker.isOpening = true) (hc : closing.closes marker = true)
    (opener : Marker) (depth : Nat) :
    ∃ inner, depthAfter opener depth (some marker) = some inner ∧
      depthAfter opener inner (some closing) = some depth := by
  by_cases hl : marker.opensLike opener = true
  · refine ⟨depth + 1, ?_, ?_⟩
    · simp [depthAfter, hl]
    · cases opener <;> cases marker <;> cases closing <;>
        simp_all [depthAfter, opensLike, closes]
  · refine ⟨depth, ?_, ?_⟩
    · cases opener <;> cases marker <;> simp_all [depthAfter, opensLike, closes, isOpening]
    · cases opener <;> cases marker <;> cases closing <;>
        simp_all [depthAfter, opensLike, closes]

theorem balanced_nil (opener : Marker) : Balanced opener [] := by
  intro depth rest
  simp

theorem Balanced.append {first rest : List Block} (hf : Balanced opener first)
    (hr : Balanced opener rest) : Balanced opener (first ++ rest) := by
  intro depth more
  rw [List.append_assoc, hf, hr, Option.map_map, List.length_append]
  congr 1
  funext n
  simp only [Function.comp_apply]
  omega

theorem balanced_plain {block : Block} (h : ofBlock? block = none) (opener : Marker) :
    Balanced opener [block] := by
  intro depth rest
  have hd : depthAfter opener depth (ofBlock? block) = some depth := by rw [h, depthAfter]
  exact closerFrom?_cons hd rest

/-- An opener, balanced paragraphs and the closer of the opener are balanced. -/
theorem Balanced.part {first last : Block} {body : List Block} (hb : Balanced opener body)
    (hf : ofBlock? first = some marker) (ho : marker.isOpening = true)
    (hl : ofBlock? last = some closing) (hc : closing.closes marker = true) :
    Balanced opener (first :: (body ++ [last])) := by
  intro depth rest
  obtain ⟨inner, hin, hout⟩ := depthAfter_part ho hc opener depth
  rw [← hf] at hin
  rw [← hl] at hout
  have he : first :: (body ++ [last]) ++ rest = first :: (body ++ last :: rest) := by simp
  rw [he, closerFrom?_cons hin, hb, closerFrom?_cons hout, Option.map_map, Option.map_map]
  congr 1
  funext n
  simp only [Function.comp_apply, List.length_cons, List.length_append, List.length_nil]
  omega

/-- The closer behind balanced paragraphs is the closer of the opener before them. -/
theorem Balanced.closer? {last : Block} {body : List Block} (hb : Balanced marker body)
    (hl : ofBlock? last = some closing) (hc : closing.closes marker = true) (after : List Block) :
    marker.closer? (body ++ last :: after) = some body.length := by
  have hd : depthAfter marker 0 (ofBlock? last) = none := by
    rw [hl]
    cases marker <;> cases closing <;> simp_all [depthAfter, opensLike, closes]
  rw [Marker.closer?, hb]
  simp [closerFrom?, hd]

end Marker

mutual

/-- The paragraphs of an outline are balanced. -/
theorem Outline.balanced_flatten (opener : Marker) : (outline : Outline) →
    Marker.Balanced opener outline.flatten
  | .plain block h => by
    rw [flatten]
    exact Marker.balanced_plain h opener
  | .ifThen condition first body last hf hl => by
    rw [flatten]
    exact (balanced_flattenAll opener body).part hf rfl hl rfl
  | .forEach item source first body last hf hl => by
    rw [flatten]
    exact (balanced_flattenAll opener body).part hf rfl hl rfl

/-- The paragraphs of outlines are balanced. -/
theorem Outline.balanced_flattenAll (opener : Marker) : (outlines : List Outline) →
    Marker.Balanced opener (flattenAll outlines)
  | [] => by
    rw [flattenAll]
    exact Marker.balanced_nil opener
  | outline :: outlines => by
    rw [flattenAll]
    exact (balanced_flatten opener outline).append (balanced_flattenAll opener outlines)

end

/-! ### Expansion follows the outline -/

namespace Expansion

/-- An expansion comes to its end and leaves the given paragraphs. -/
def Yields (expansion : Expansion) (blocks : List Block) : Prop :=
  expansion.aborted = false ∧ expansion.blocks = blocks

theorem yields_empty : Yields empty [] := ⟨rfl, rfl⟩

theorem Yields.append {first rest : Expansion} {blocks more : List Block}
    (hf : first.Yields blocks) (hr : rest.Yields more) :
    (first.append rest).Yields (blocks ++ more) := by
  refine ⟨hr.1, ?_⟩
  rw [blocks_append, hf.2, hr.2]

/-- A part that comes to its end for every item is there once for each. -/
theorem yields_forItems {expand : Value → Expansion} {blocks : Value → List Block}
    (h : ∀ item, (expand item).Yields (blocks item)) (items : List Value) :
    (forItems expand items).Yields (items.flatMap blocks) := by
  induction items with
  | nil => exact yields_empty
  | cons item items ih =>
    rw [forItems, List.flatMap_cons]
    simp only [(h item).1, Bool.false_eq_true, if_false]
    exact (h item).append ih

end Expansion

/-- An opener, balanced paragraphs and the closer leave what the opener makes of the paragraphs. -/
theorem yields_part {fills : Bool} {scope : Scope} {marker closing : Marker}
    {opener closer : Block} {body blocks : List Block} (ho : Marker.ofBlock? opener = some marker)
    (hi : marker.isOpening = true) (hl : Marker.ofBlock? closer = some closing)
    (hc : closing.closes marker = true) (hb : marker.Balanced body)
    (h : (Expansion.ofPart (expand fills body) scope marker).Yields blocks) :
    (expand fills (opener :: (body ++ [closer])) scope).Yields blocks := by
  rw [expand_closed ho hi (hb.closer? hl hc [])]
  simp only [h.1, Bool.false_eq_true, if_false, expand_nil]
  rw [Expansion.append_empty h.1]
  exact h

mutual

/-- Expansion does to the paragraphs of an outline what the outline says. -/
theorem Outline.yields_flatten (fills : Bool) : (outline : Outline) → (scope : Scope) →
    (expand fills outline.flatten scope).Yields (outline.meaning fills scope)
  | .plain block h, scope => by
    rw [flatten, meaning, expand_loose (Marker.opens_of_ofBlock?_none h), expand_nil]
    refine ⟨rfl, ?_⟩
    cases fills <;> simp [Expansion.ofLoose, Expansion.ofPlain, h]
  | .ifThen condition opener body closer ho hl, scope => by
    rw [flatten, meaning]
    apply yields_part ho rfl hl rfl (balanced_flattenAll _ body)
    rw [Expansion.ofPart]
    split
    · exact yields_flattenAll fills body scope
    · exact Expansion.yields_empty
  | .forEach item source opener body closer ho hl, scope => by
    rw [flatten, meaning]
    apply yields_part ho rfl hl rfl (balanced_flattenAll _ body)
    rw [Expansion.ofPart]
    exact Expansion.yields_forItems
      (fun value ↦ yields_flattenAll fills body (scope.withItem item value)) _

/-- Expansion does to the paragraphs of outlines what the outlines say. -/
theorem Outline.yields_flattenAll (fills : Bool) : (outlines : List Outline) → (scope : Scope) →
    (expand fills (flattenAll outlines) scope).Yields (meaningAll fills outlines scope)
  | [], scope => by
    rw [flattenAll, meaningAll, expand_nil]
    exact Expansion.yields_empty
  | outline :: outlines, scope => by
    have hf := yields_flatten fills outline scope
    rw [flattenAll, meaningAll, expand_append hf.1]
    exact hf.append (yields_flattenAll fills outlines scope)

end

/-! ### No marker is left -/

/-- A paragraph is left of one that is no marker: as it is, or filled inside loops of the scope. -/
def LeftOf (fills : Bool) (scope : Scope) (source block : Block) : Prop :=
  Marker.ofBlock? source = none ∧ ∃ frames, block =
    if fills then source.fill { scope with frames := frames ++ scope.frames } else source

/-- What is left inside a loop is left in the scope around it. -/
theorem LeftOf.of_withItem {fills : Bool} {scope : Scope} {name : String} {item : Value}
    {source block : Block} (h : LeftOf fills (scope.withItem name item) source block) :
    LeftOf fills scope source block := by
  obtain ⟨hs, frames, rfl⟩ := h
  refine ⟨hs, frames ++ [(name, item)], ?_⟩
  simp [Scope.withItem]

mutual

/-- What an outline says is left of its paragraphs that are no markers. -/
theorem Outline.leftOf_of_mem_meaning {fills : Bool} {block : Block} :
    (outline : Outline) → (scope : Scope) → block ∈ outline.meaning fills scope →
    ∃ source ∈ outline.plains, LeftOf fills scope source block
  | .plain source h, scope, hb => by
    rw [meaning, List.mem_singleton] at hb
    refine ⟨source, by rw [plains]; exact List.mem_singleton_self _, h, [], ?_⟩
    simpa using hb
  | .ifThen condition opener body closer ho hl, scope, hb => by
    rw [meaning] at hb
    rw [plains]
    split at hb
    · exact leftOf_of_mem_meaningAll body scope hb
    · simp at hb
  | .forEach item source opener body closer ho hl, scope, hb => by
    rw [meaning] at hb
    rw [plains]
    obtain ⟨value, -, hb⟩ := List.mem_flatMap.mp hb
    obtain ⟨plain, hp, hl⟩ := leftOf_of_mem_meaningAll body (scope.withItem item value) hb
    exact ⟨plain, hp, hl.of_withItem⟩

/-- What outlines say is left of their paragraphs that are no markers. -/
theorem Outline.leftOf_of_mem_meaningAll {fills : Bool} {block : Block} :
    (outlines : List Outline) → (scope : Scope) → block ∈ meaningAll fills outlines scope →
    ∃ source ∈ plainsAll outlines, LeftOf fills scope source block
  | [], scope, hb => by simp [meaningAll] at hb
  | outline :: outlines, scope, hb => by
    rw [meaningAll, List.mem_append] at hb
    rw [plainsAll]
    cases hb with
    | inl hb =>
      obtain ⟨source, hs, hl⟩ := leftOf_of_mem_meaning outline scope hb
      exact ⟨source, List.mem_append_left _ hs, hl⟩
    | inr hb =>
      obtain ⟨source, hs, hl⟩ := leftOf_of_mem_meaningAll outlines scope hb
      exact ⟨source, List.mem_append_right _ hs, hl⟩

end

/-- Expanding the paragraphs of outlines comes to its end and leaves exactly what the outlines say:
each paragraph that is left is one that is no marker, as it is or filled. -/
theorem expand_flattenAll (fills : Bool) (outlines : List Outline) (scope : Scope) :
    (expand fills (Outline.flattenAll outlines) scope).aborted = false ∧
      (expand fills (Outline.flattenAll outlines) scope).blocks =
        Outline.meaningAll fills outlines scope ∧
      ∀ block ∈ (expand fills (Outline.flattenAll outlines) scope).blocks,
        ∃ source ∈ Outline.plainsAll outlines, LeftOf fills scope source block := by
  obtain ⟨ha, hb⟩ := Outline.yields_flattenAll fills outlines scope
  refine ⟨ha, hb, ?_⟩
  intro block hm
  rw [hb] at hm
  exact Outline.leftOf_of_mem_meaningAll outlines scope hm

end LoanClosing
