import LoanClosing.Proofs.Expansion.Step

/-!
# Expanding two lists one behind the other

An expansion that is not stopped leaves what follows it alone, so lists expand one after the other.
Every list is a first part that expands to its end and a second part that is empty or stops at its
first paragraph and stays as written. Without filling, what the first part leaves opens nothing and
therefore expands to itself.
-/

namespace LoanClosing

namespace Expansion

/-- No paragraph of an expansion that was not stopped opens a part. -/
def Loose (expansion : Expansion) : Prop :=
  expansion.aborted = false → ∀ block ∈ expansion.blocks, Marker.opens block = false

/-- Nothing opens no part. -/
theorem loose_empty : Loose empty := by
  intro _ block hb
  simp at hb

/-- Two expansions that open no part, one behind the other, the first of which was not stopped. -/
theorem Loose.append {first rest : Expansion} (hf : Loose first) (ha : first.aborted = false)
    (hr : Loose rest) : Loose (first.append rest) := by
  intro h block hb
  rw [blocks_append, List.mem_append] at hb
  rw [aborted_append] at h
  cases hb with
  | inl hb => exact hf ha block hb
  | inr hb => exact hr h block hb

/-- A part repeated for every item opens nothing if it opens nothing for each. -/
theorem loose_forItems {expand : Value → Expansion} (h : ∀ item, Loose (expand item))
    (items : List Value) : Loose (forItems expand items) := by
  induction items with
  | nil => exact loose_empty
  | cons item items ih =>
    simp only [forItems]
    split
    · exact h item
    · next ha => exact (h item).append (by simpa using ha) ih

/-- What a part becomes opens nothing if the part opens nothing in any scope. -/
theorem loose_ofPart {expand : Scope → Expansion} (h : ∀ scope, Loose (expand scope))
    (scope : Scope) (marker : Marker) : Loose (ofPart expand scope marker) := by
  cases marker with
  | ifThen condition =>
    simp only [ofPart]
    split
    · exact h scope
    · exact loose_empty
  | forEach item source => exact loose_forItems (fun value ↦ h (scope.withItem item value)) _
  | endIf => exact loose_empty
  | endForEach => exact loose_empty

end Expansion

/-- An expansion stops at the first paragraph: its part has no closer, or is itself stopped. -/
inductive Stops (fills : Bool) (scope : Scope) : List Block → Prop
  | unclosed {block : Block} {rest : List Block} {marker : Marker}
      (hm : Marker.ofBlock? block = some marker) (ho : marker.isOpening = true)
      (hc : marker.closer? rest = none) : Stops fills scope (block :: rest)
  | part {block closer : Block} {body after : List Block} {marker : Marker}
      (hm : Marker.ofBlock? block = some marker) (ho : marker.isOpening = true)
      (hc : marker.closer? (body ++ closer :: after) = some body.length)
      (ha : (Expansion.ofPart (expand fills body) scope marker).aborted = true) :
      Stops fills scope (block :: (body ++ closer :: after))

namespace Stops

variable {fills : Bool} {scope : Scope} {blocks : List Block}

/-- What stops at once begins with an opener. -/
theorem exists_opens (h : Stops fills scope blocks) :
    ∃ block rest, blocks = block :: rest ∧ Marker.opens block = true := by
  cases h with
  | unclosed hm ho => exact ⟨_, _, rfl, Marker.opens_of_isOpening hm ho⟩
  | part hm ho => exact ⟨_, _, rfl, Marker.opens_of_isOpening hm ho⟩

/-- What stops at once stays as written. -/
theorem exists_expand_eq (h : Stops fills scope blocks) :
    ∃ tally, expand fills blocks scope = .stopped blocks tally := by
  cases h with
  | unclosed hm ho hc => exact ⟨_, expand_unclosed hm ho hc⟩
  | part hm ho hc ha =>
    rw [expand_closed hm ho hc]
    simp only [ha, if_true]
    exact ⟨_, rfl⟩

end Stops

/-- What follows a list whose expansion is not stopped is expanded by itself. -/
theorem expand_append {fills : Bool} {scope : Scope} {first : List Block}
    (h : (expand fills first scope).aborted = false) (rest : List Block) :
    expand fills (first ++ rest) scope =
      (expand fills first scope).append (expand fills rest scope) := by
  induction first using Marker.induction_on_parts with
  | nil => simp
  | loose block first hl ih =>
    rw [expand_loose hl, Expansion.aborted_cons] at h
    rw [List.cons_append, expand_loose hl, expand_loose hl, ih h, Expansion.cons_append]
  | unclosed block first marker hm ho hc => simp [expand_unclosed hm ho hc] at h
  | closed block body closer after marker hm ho hc _ ih =>
    have hc' : marker.closer? (body ++ closer :: (after ++ rest)) = some body.length :=
      Marker.closerFrom?_replace hc _
    have he : block :: (body ++ closer :: after) ++ rest =
        block :: (body ++ closer :: (after ++ rest)) := by simp
    rw [expand_closed hm ho hc] at h
    rw [he, expand_closed hm ho hc', expand_closed hm ho hc]
    dsimp only at h ⊢
    split
    · next ha => simp [ha] at h
    · next ha =>
      rw [if_neg ha, Expansion.aborted_append] at h
      rw [ih h, Expansion.append_assoc]

/-- A list is a part that expands to its end, and a part that is empty or stops at once. -/
theorem exists_split (fills : Bool) (scope : Scope) (blocks : List Block) :
    ∃ done rest, blocks = done ++ rest ∧ (expand fills done scope).aborted = false ∧
      (rest = [] ∨ Stops fills scope rest) := by
  induction blocks using Marker.induction_on_parts with
  | nil => exact ⟨[], [], rfl, by simp, .inl rfl⟩
  | loose block blocks hl ih =>
    obtain ⟨done, rest, rfl, hd, hr⟩ := ih
    exact ⟨block :: done, rest, rfl, by rw [expand_loose hl]; exact hd, hr⟩
  | unclosed block blocks marker hm ho hc =>
    exact ⟨[], block :: blocks, rfl, by simp, .inr (.unclosed hm ho hc)⟩
  | closed block body closer after marker hm ho hc _ ih =>
    cases ha : (Expansion.ofPart (expand fills body) scope marker).aborted with
    | true =>
      exact ⟨[], block :: (body ++ closer :: after), rfl, by simp, .inr (.part hm ho hc ha)⟩
    | false =>
      obtain ⟨done, rest, rfl, hd, hr⟩ := ih
      refine ⟨block :: (body ++ closer :: done), rest, by simp, ?_, hr⟩
      rw [expand_closed hm ho (Marker.closerFrom?_replace hc done)]
      simp [ha, hd]

/-- What is left of two parts, the first of which expands to its end and the second stops at
once. -/
theorem blocks_expand_append_of_stops {fills : Bool} {scope : Scope} {done rest : List Block}
    (hd : (expand fills done scope).aborted = false) (hr : rest = [] ∨ Stops fills scope rest) :
    (expand fills (done ++ rest) scope).blocks = (expand fills done scope).blocks ++ rest := by
  rw [expand_append hd, Expansion.blocks_append]
  cases hr with
  | inl hr => rw [hr, expand_nil, Expansion.blocks_empty]
  | inr hr =>
    obtain ⟨tally, he⟩ := hr.exists_expand_eq
    rw [he, Expansion.blocks_stopped]

/-- Without filling, nothing that is left opens a part, unless the expansion was stopped. -/
theorem loose_expand (blocks : List Block) (scope : Scope) :
    (expand false blocks scope).Loose := by
  induction blocks using Marker.induction_on_parts generalizing scope with
  | nil => rw [expand_nil]; exact Expansion.loose_empty
  | loose block rest hl ih =>
    intro h other hb
    rw [expand_loose hl, Expansion.ofLoose_false] at h hb
    rw [Expansion.blocks_cons, List.mem_cons] at hb
    cases hb with
    | inl hb => rw [hb]; exact hl
    | inr hb => exact ih scope h other hb
  | unclosed block rest marker hm ho hc =>
    intro h
    simp [expand_unclosed hm ho hc] at h
  | closed block body closer after marker hm ho hc ihb iha =>
    rw [expand_closed hm ho hc]
    dsimp only
    split
    · intro h
      simp at h
    · next ha =>
      exact (Expansion.loose_ofPart ihb scope marker).append (by simpa using ha) (iha scope)

/-- Paragraphs that open nothing stay as they are when placeholders are not filled. -/
theorem expand_eq_of_loose {blocks : List Block}
    (h : ∀ block ∈ blocks, Marker.opens block = false) (scope : Scope) :
    expand false blocks scope = ⟨blocks, false, .zero⟩ := by
  induction blocks with
  | nil => rw [expand_nil, Expansion.empty]
  | cons block rest ih =>
    rw [expand_loose (h block List.mem_cons_self), Expansion.ofLoose_false,
      ih fun other hb ↦ h other (List.mem_cons_of_mem block hb)]
    simp [Expansion.cons]

end LoanClosing
