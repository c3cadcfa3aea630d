import LoanClosing.Document.Expansion
import LoanClosing.Proofs.Placeholder.Segment

/-!
# One step of an expansion

What expansion does with the first paragraph of a list, one equation for each kind of paragraph:
it opens nothing, it opens a part without a closer, or it opens a part with one. With them comes
the induction that follows these steps, and laws of the outcomes that the steps put together.
-/

namespace LoanClosing

namespace Marker

/-- Whether a paragraph opens a part. -/
def opens (block : Block) : Bool := (ofBlock? block).any isOpening

/-- A paragraph that opens a part is an opening marker. -/
theorem exists_of_opens {block : Block} (h : opens block = true) :
    ∃ marker, ofBlock? block = some marker ∧ marker.isOpening = true := by
  unfold opens at h
  cases hm : ofBlock? block with
  | none => simp [hm] at h
  | some marker => exact ⟨marker, rfl, by simpa [hm] using h⟩

/-- An opening marker opens a part. -/
theorem opens_of_isOpening {block : Block} {marker : Marker}
    (hm : ofBlock? block = some marker) (ho : marker.isOpening = true) : opens block = true := by
  simp [opens, hm, ho]

/-- A paragraph that is no marker opens nothing. -/
theorem opens_of_ofBlock?_none {block : Block} (h : ofBlock? block = none) :
    opens block = false := by
  simp [opens, h]

/-- Whether a paragraph closes an opener depends on nothing behind it. -/
theorem closerFrom?_replace {opener : Marker} {depth : Nat} {body : List Block} {closer : Block}
    {after : List Block}
    (h : closerFrom? opener depth (body ++ closer :: after) = some body.length)
    (after' : List Block) :
    closerFrom? opener depth (body ++ closer :: after') = some body.length := by
  induction body generalizing depth with
  | nil =>
    simp only [List.nil_append, closerFrom?, List.length_nil] at h ⊢
    cases hd : depthAfter opener depth (ofBlock? closer) with
    | none => rfl
    | some d => simp [hd] at h
  | cons block body ih =>
    simp only [List.cons_append, closerFrom?, List.length_cons] at h ⊢
    cases hd : depthAfter opener depth (ofBlock? block) with
    | none => simp [hd] at h
    | some d =>
      simp only [hd, Option.map_eq_some_iff] at h ⊢
      obtain ⟨n, hn, he⟩ := h
      have hn' : n = body.length := by omega
      subst hn'
      exact ⟨body.length, ih hn, rfl⟩

/-- The paragraphs between an opener and its closer, the closer, and the paragraphs behind it. -/
theorem exists_of_closer?_some {opener : Marker} {rest : List Block} {n : Nat}
    (h : closer? opener rest = some n) :
    ∃ body closer after, rest = body ++ closer :: after ∧ n = body.length := by
  have hn : n < rest.length := lt_length_of_closerFrom? h
  refine ⟨rest.take n, rest[n], rest.drop (n + 1), ?_, ?_⟩
  · rw [List.getElem_cons_drop, List.take_append_drop]
  · rw [List.length_take, Nat.min_eq_left (Nat.le_of_lt hn)]

/-- Induction along the steps of an expansion: a part that has its closer counts as one step. -/
@[elab_as_elim]
theorem induction_on_parts {motive : List Block → Prop} (blocks : List Block)
    (nil : motive [])
    (loose : ∀ block rest, opens block = false → motive rest → motive (block :: rest))
    (unclosed : ∀ block rest marker, ofBlock? block = some marker → marker.isOpening = true →
      closer? marker rest = none → motive (block :: rest))
    (closed : ∀ block body closer after marker, ofBlock? block = some marker →
      marker.isOpening = true → closer? marker (body ++ closer :: after) = some body.length →
      motive body → motive after → motive (block :: (body ++ closer :: after))) :
    motive blocks := by
  induction hn : blocks.length using Nat.strongRecOn generalizing blocks with
  | ind n ih =>
    subst hn
    cases blocks with
    | nil => exact nil
    | cons block rest =>
      cases ho : opens block with
      | false => exact loose block rest ho (ih rest.length (Nat.lt_succ_self _) rest rfl)
      | true =>
        obtain ⟨marker, hm, hi⟩ := exists_of_opens ho
        cases hc : closer? marker rest with
        | none => exact unclosed block rest marker hm hi hc
        | some n =>
          obtain ⟨body, closer, after, rfl, rfl⟩ := exists_of_closer?_some hc
          have hb : body.length < (block :: (body ++ closer :: after)).length := by
            simp only [List.length_cons, List.length_append]
            omega
          have ha : after.length < (block :: (body ++ closer :: after)).length := by
            simp only [List.length_cons, List.length_append]
            omega
          exact closed block body closer after marker hm hi hc (ih _ hb body rfl)
            (ih _ ha after rfl)

end Marker

namespace Expansion

@[simp] theorem blocks_empty : empty.blocks = [] := rfl
@[simp] theorem aborted_empty : empty.aborted = false := rfl
@[simp] theorem blocks_stopped (blocks : List Block) (tally : Placeholder.Tally) :
    (stopped blocks tally).blocks = blocks := rfl
@[simp] theorem aborted_stopped (blocks : List Block) (tally : Placeholder.Tally) :
    (stopped blocks tally).aborted = true := rfl
@[simp] theorem blocks_cons (block : Block) (tally : Placeholder.Tally) (rest : Expansion) :
    (rest.cons block tally).blocks = block :: rest.blocks := rfl
@[simp] theorem aborted_cons (block : Block) (tally : Placeholder.Tally) (rest : Expansion) :
    (rest.cons block tally).aborted = rest.aborted := rfl
@[simp] theorem blocks_append (first rest : Expansion) :
    (first.append rest).blocks = first.blocks ++ rest.blocks := rfl
@[simp] theorem aborted_append (first rest : Expansion) :
    (first.append rest).aborted = rest.aborted := rfl

/-- Nothing in front of an expansion. -/
@[simp] theorem empty_append (rest : Expansion) : empty.append rest = rest := by
  simp [empty, append]

/-- Nothing behind an expansion that was not stopped. -/
theorem append_empty {first : Expansion} (h : first.aborted = false) :
    first.append empty = first := by
  cases first
  simp_all [empty, append]

/-- Expansions are put together in any grouping. -/
theorem append_assoc (a b c : Expansion) : (a.append b).append c = a.append (b.append c) := by
  simp [append, Placeholder.Tally.add_assoc]

/-- A paragraph in front of two expansions. -/
theorem cons_append (block : Block) (tally : Placeholder.Tally) (first rest : Expansion) :
    (first.cons block tally).append rest = (first.append rest).cons block tally := by
  simp [append, cons, Placeholder.Tally.add_assoc]

/-- What becomes of a paragraph that opens nothing: a closer stays as it is. -/
def ofLoose (fills : Bool) (scope : Scope) (block : Block) : Block × Placeholder.Tally :=
  if (Marker.ofBlock? block).isSome then (block, .zero) else ofPlain fills scope block

/-- Without filling, a paragraph that opens nothing stays as it is. -/
@[simp] theorem ofLoose_false (scope : Scope) (block : Block) :
    ofLoose false scope block = (block, .zero) := by
  simp [ofLoose, ofPlain]

end Expansion

variable {fills : Bool} {scope : Scope} {block closer : Block} {rest body after : List Block}
  {marker : Marker}

/-- Nothing expands to nothing. -/
@[simp] theorem expand_nil (fills : Bool) (scope : Scope) : expand fills [] scope = .empty := by
  rw [expand]

/-- A paragraph that opens nothing is a step of its own. -/
theorem expand_loose (h : Marker.opens block = false) :
    expand fills (block :: rest) scope =
      (expand fills rest scope).cons (Expansion.ofLoose fills scope block).1
        (Expansion.ofLoose fills scope block).2 := by
  rw [expand]
  split
  · next hm => simp [Expansion.ofLoose, hm]
  · next marker hm =>
    have ho : marker.isOpening = false := by simpa [Marker.opens, hm] using h
    simp [Expansion.ofLoose, hm, ho]

/-- An opener without a closer stops the expansion. -/
theorem expand_unclosed (hm : Marker.ofBlock? block = some marker)
    (ho : marker.isOpening = true) (hc : marker.closer? rest = none) :
    expand fills (block :: rest) scope = .stopped (block :: rest) .zero := by
  rw [expand]
  split
  · next h => simp [hm] at h
  · next other h =>
    obtain rfl : marker = other := by simpa [hm] using h
    rw [if_pos ho]
    split
    · rfl
    · next n h => simp [hc] at h

/-- An opener and its closer leave what becomes of the part between them, unless that is stopped. -/
theorem expand_closed (hm : Marker.ofBlock? block = some marker) (ho : marker.isOpening = true)
    (hc : marker.closer? (body ++ closer :: after) = some body.length) :
    expand fills (block :: (body ++ closer :: after)) scope =
      let part := Expansion.ofPart (expand fills body) scope marker
      if part.aborted then .stopped (block :: (body ++ closer :: after)) part.tally
      else part.append (expand fills after scope) := by
  rw [expand]
  split
  · next h => simp [hm] at h
  · next other h =>
    obtain rfl : marker = other := by simpa [hm] using h
    rw [if_pos ho]
    split
    · next h => simp [hc] at h
    · next n h =>
      obtain rfl : body.length = n := by simpa [hc] using h
      rw [List.take_left, List.drop_append, List.drop_of_length_le (Nat.le_succ _)]
      simp

end LoanClosing
