import LoanClosing.Document.Processing
import LoanClosing.Proofs.Expansion.Concat

/-!
# Expanding again

After the first expansion a container is expanded again, without filling, up to a limit. One such
pass is enough: what it leaves, also where it was stopped, is left as it is by every further pass.
So the result does not depend on the limit, as long as there is one pass at all.
-/

namespace LoanClosing

/-- What one more expansion without filling leaves. -/
def pass (scope : Scope) (blocks : List Block) : List Block := (expand false blocks scope).blocks

/-- A pass leaves what it opens nothing in, and keeps as written what stops it. -/
theorem exists_pass_eq (scope : Scope) (blocks : List Block) :
    ∃ done rest, blocks = done ++ rest ∧ pass scope blocks = pass scope done ++ rest ∧
      (∀ block ∈ pass scope done, Marker.opens block = false) ∧
      (rest = [] ∨ Stops false scope rest) := by
  obtain ⟨done, rest, rfl, hd, hr⟩ := exists_split false scope blocks
  exact ⟨done, rest, rfl, blocks_expand_append_of_stops hd hr, loose_expand done scope hd, hr⟩

/-- A pass leaves paragraphs that open nothing as they are. -/
theorem pass_of_loose {blocks : List Block} (h : ∀ block ∈ blocks, Marker.opens block = false)
    (scope : Scope) : pass scope blocks = blocks := by
  rw [pass, expand_eq_of_loose h]

/-- A second pass changes nothing. -/
theorem pass_pass (scope : Scope) (blocks : List Block) :
    pass scope (pass scope blocks) = pass scope blocks := by
  obtain ⟨done, rest, -, he, hl, hr⟩ := exists_pass_eq scope blocks
  have hs : expand false (pass scope done) scope = ⟨pass scope done, false, .zero⟩ :=
    expand_eq_of_loose hl scope
  have ha : (expand false (pass scope done) scope).aborted = false := by rw [hs]
  rw [he, pass, blocks_expand_append_of_stops ha hr, hs]

/-- Without a marker there is nothing that opens. -/
theorem opens_of_count_eq_zero {blocks : List Block} (h : Marker.count blocks = 0) :
    ∀ block ∈ blocks, Marker.opens block = false := by
  intro block hb
  rw [Marker.count, List.countP_eq_zero] at h
  have hn := h block hb
  apply Marker.opens_of_ofBlock?_none
  simpa using hn

namespace Processor

/-- Without a marker nothing is expanded again. -/
theorem extraPasses_of_count_eq_zero (scope : Scope) (passes : Nat) {blocks : List Block}
    (h : Marker.count blocks = 0) : extraPasses scope passes blocks = (0, blocks) := by
  cases passes with
  | zero => rfl
  | succ passes => rw [extraPasses, if_pos h]

/-- With at least one pass allowed, what comes out is what one pass leaves. -/
theorem extraPasses_blocks (scope : Scope) (passes : Nat) (blocks : List Block) :
    (extraPasses scope (passes + 1) blocks).2 = pass scope blocks := by
  induction passes generalizing blocks with
  | zero =>
    rw [extraPasses]
    split
    · next h => exact (pass_of_loose (opens_of_count_eq_zero h) scope).symm
    · dsimp only
      split
      · next h => exact h.symm
      · rw [extraPasses, pass]
  | succ passes ih =>
    rw [extraPasses]
    split
    · next h => exact (pass_of_loose (opens_of_count_eq_zero h) scope).symm
    · dsimp only
      split
      · next h => exact h.symm
      · exact (ih _).trans (pass_pass scope blocks)

/-- There are never more passes than allowed. -/
theorem extraPasses_le (scope : Scope) (passes : Nat) (blocks : List Block) :
    (extraPasses scope passes blocks).1 ≤ passes := by
  induction passes generalizing blocks with
  | zero => exact Nat.le_refl _
  | succ passes ih =>
    rw [extraPasses]
    split
    · exact Nat.zero_le _
    · dsimp only
      split
      · exact Nat.succ_le_succ (Nat.zero_le _)
      · exact Nat.succ_le_succ (ih _)

/-- On what a pass has left, one pass at most is made: it changes nothing. -/
theorem extraPasses_pass_le (scope : Scope) (passes : Nat) (blocks : List Block) :
    (extraPasses scope passes (pass scope blocks)).1 ≤ 1 := by
  cases passes with
  | zero => exact Nat.zero_le _
  | succ passes =>
    have hp : (expand false (pass scope blocks) scope).blocks = pass scope blocks :=
      pass_pass scope blocks
    rw [extraPasses]
    split
    · exact Nat.zero_le _
    · simp only [hp, if_true, Nat.le_refl]

/-- There are never more than two passes, the second of which changes nothing. -/
theorem extraPasses_le_two (scope : Scope) (passes : Nat) (blocks : List Block) :
    (extraPasses scope passes blocks).1 ≤ 2 := by
  cases passes with
  | zero => exact Nat.zero_le _
  | succ passes =>
    rw [extraPasses]
    split
    · exact Nat.zero_le _
    · dsimp only
      split
      · exact Nat.succ_le_succ (Nat.zero_le _)
      · exact Nat.succ_le_succ (extraPasses_pass_le scope passes blocks)

/-- One pass settles every list of paragraphs. So the processed container is what the first
expansion leaves, if no pass is allowed or there is no marker in it, and what one pass makes of
that for every other limit; at most two passes are made, and never more than the limit. -/
theorem processContainer_settled (processor : Processor) (model : Value) (container : Container) :
    let scope := Scope.outermost processor.rootName model
    let main := (expand true container.blocks scope).blocks
    let processed := processor.processContainer scope container
    (∀ blocks, pass scope (pass scope blocks) = pass scope blocks) ∧
      processed.1.blocks =
        (if processor.maxExtraPasses = 0 ∨ Marker.count main = 0 then main
        else pass scope main) ∧
      (processor.maxExtraPasses = 0 ∨ processed.1.blocks = pass scope main) ∧
      processed.2.extraPasses ≤ 2 ∧ processed.2.extraPasses ≤ processor.maxExtraPasses := by
  intro scope main processed
  have hb : processed.1.blocks = (extraPasses scope processor.maxExtraPasses main).2 := rfl
  have hn : processed.2.extraPasses = (extraPasses scope processor.maxExtraPasses main).1 := rfl
  refine ⟨pass_pass scope, ?_, ?_, ?_, ?_⟩
  · rw [hb]
    cases hm : processor.maxExtraPasses with
    | zero => simp [extraPasses]
    | succ passes =>
      rw [extraPasses_blocks]
      split
      · next h =>
        have hc : Marker.count main = 0 := by simpa using h
        exact pass_of_loose (opens_of_count_eq_zero hc) scope
      · rfl
  · rw [hb]
    cases hm : processor.maxExtraPasses with
    | zero => exact .inl rfl
    | succ passes => exact .inr (extraPasses_blocks scope passes main)
  · rw [hn]
    exact extraPasses_le_two scope _ main
  · rw [hn]
    exact extraPasses_le scope _ main

end Processor

end LoanClosing
