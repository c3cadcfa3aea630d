import LoanClosing.Proofs.Expansion.Origin
import LoanClosing.Proofs.Placeholder.Refill

/-!
# Processing what is processed

A document that is processed without being stopped, and in which no marker is left, has settled:
each paragraph was filled once, in the scope of its loops, and the tokens that are left start with
no name in that scope or are no paths. Around the loops they are no more in scope. So processing the
result again changes nothing, if the data bring in no opening brace and no paragraph of the template
opens a brace while one is open.
-/

namespace LoanClosing

/-- The texts in the data of a scope inside of loops are among those of the scope around them. -/
theorem Scope.Encloses.texts_subset {outer inner : Scope} (h : outer.Encloses inner) :
    inner.texts ⊆ outer.texts := by
  induction h with
  | self => exact List.Subset.refl _
  | loop _ name source hi ih =>
    apply List.Subset.trans _ ih
    apply List.append_subset.mpr
    exact ⟨texts_subset_of_mem_resolveItems hi, List.Subset.refl _⟩

/-- A token that is not replaced inside of loops is not replaced around them. -/
theorem Scope.Encloses.replacement?_eq_none {outer inner : Scope} {key : List Char}
    (he : outer.Encloses inner) (h : Flat.replacement? inner key = none) :
    Flat.replacement? outer key = none := by
  induction he with
  | self => exact h
  | loop _ name source hi ih => exact ih (Placeholder.replacement?_eq_none_of_withItem h)

namespace Block

/-- A paragraph is no marker, and none of its tokens is replaced in a scope. -/
def Settled (scope : Scope) (block : Block) : Prop :=
  Marker.ofBlock? block = none ∧
    ∀ key ∈ Flat.keys block.chars, Flat.replacement? scope key = none

/-- A paragraph that was filled and is no marker has settled. -/
theorem FilledFrom.settled {scope : Scope} {source block : Block}
    (h : FilledFrom scope source block) (hs : ∀ s ∈ scope.texts, '\x7b' ∉ s.toList)
    (hn : Flat.nests false source.chars = false) (hm : Marker.ofBlock? block = none) :
    block.Settled scope := by
  obtain ⟨-, inner, he, rfl⟩ := h
  refine ⟨hm, fun key hk ↦ ?_⟩
  rw [keys_chars_fill (fun s hs' ↦ hs s (he.texts_subset hs')) hn, List.mem_filter] at hk
  exact he.replacement?_eq_none (by simpa using hk.2)

end Block

/-- Paragraphs that have settled expand to themselves. -/
theorem expand_of_settled {scope : Scope} {blocks : List Block}
    (h : ∀ block ∈ blocks, block.Settled scope) :
    (expand true blocks scope).blocks = blocks ∧ (expand true blocks scope).aborted = false ∧
      (expand true blocks scope).tally.missing = 0 := by
  induction blocks with
  | nil => simp [Expansion.empty, Placeholder.Tally.zero]
  | cons block rest ih =>
    obtain ⟨hm, hk⟩ := h block List.mem_cons_self
    obtain ⟨hb, ha, ht⟩ := ih fun other ho ↦ h other (List.mem_cons_of_mem block ho)
    have hl : Expansion.ofLoose true scope block = (block, block.tally scope) := by
      simp [Expansion.ofLoose, Expansion.ofPlain, hm, Block.fill_eq_self hk]
    rw [expand_loose (Marker.opens_of_ofBlock?_none hm), hl]
    refine ⟨?_, ha, ?_⟩
    · rw [Expansion.blocks_cons, hb]
    · simp [Expansion.cons, Placeholder.Tally.add, Block.missing_tally_eq_zero hk, ht]

namespace ContainerReport

/-- Whether the first expansion was not stopped and no marker is left. -/
def isClean (report : ContainerReport) : Bool :=
  !report.aborted && report.markersRemaining == 0

/-- A report in which nothing was expanded again and no path led nowhere. -/
def quiet (report : ContainerReport) : ContainerReport :=
  { report with extraPasses := 0, aborted := false, markersRemaining := 0, unresolved := 0 }

end ContainerReport

namespace Processor

/-- The paragraphs of a container that is processed cleanly have settled. -/
theorem settled_of_isClean {processor : Processor} {scope : Scope} {container : Container}
    (hs : ∀ s ∈ scope.texts, '\x7b' ∉ s.toList)
    (hn : ∀ block ∈ container.blocks, Flat.nests false block.chars = false)
    (hc : (processor.processContainer scope container).2.isClean = true) :
    ∀ block ∈ (processor.processContainer scope container).1.blocks, block.Settled scope := by
  intro block hb
  rw [ContainerReport.isClean, Bool.and_eq_true, Bool.not_eq_true', beq_iff_eq] at hc
  obtain ⟨ha, hm⟩ := hc
  have hp : Marker.ofBlock? block = none := by
    have hz := List.countP_eq_zero.mp hm block hb
    simpa using hz
  cases comesFrom_expand true container.blocks scope block
    (mem_expand_of_mem_processContainer hb) with
  | inl h =>
    -- A paragraph that is there as written is a marker, and none is left.
    have hs := h.2 rfl ha
    simp [hp] at hs
  | inr h =>
    obtain ⟨-, source, hm, hf⟩ := h
    exact hf.settled hs (hn source hm) hp

/-- Processing a container whose paragraphs have settled changes nothing. -/
theorem processContainer_of_settled (processor : Processor) {scope : Scope} {container : Container}
    (h : ∀ block ∈ container.blocks, block.Settled scope) :
    processor.processContainer scope container =
      (container,
        ⟨container.name, 0, false, 0, 0, (container.blocks.flatMap Block.keys).length⟩) := by
  obtain ⟨hb, ha, ht⟩ := expand_of_settled h
  have hm : Marker.count container.blocks = 0 := by
    rw [Marker.count, List.countP_eq_zero]
    intro block hb
    simp [(h block hb).1]
  simp only [processContainer, hb, ha, ht, extraPasses_of_count_eq_zero _ _ hm, hm]

/-- Processing a document again, after it was processed without being stopped and with no marker
left, leaves every container as it is, and the report tells of the same placeholders and of nothing
else. The data may hold no opening brace, and no paragraph of the template may open a brace while
one is open; closing braces may stand anywhere. -/
theorem process_process (processor : Processor) {containers : List Container} {model : Value}
    (ht : ∀ s ∈ model.texts, '\x7b' ∉ s.toList)
    (hn : ∀ container ∈ containers, ∀ block ∈ container.blocks,
      Flat.nests false block.chars = false)
    (hc : (processor.process containers model).2.isClean = true) :
    processor.process (processor.process containers model).1 model =
      ((processor.process containers model).1,
        ⟨(processor.process containers model).2.containers.map ContainerReport.quiet⟩) := by
  have hs : ∀ s ∈ (Scope.outermost processor.rootName model).texts, '\x7b' ∉ s.toList := by
    intro s hm
    have he : (Scope.outermost processor.rootName model).texts = model.texts := by
      simp [Scope.outermost, Scope.texts, Value.textsOfEntries]
    exact ht s (he ▸ hm)
  simp only [process, Report.isClean, List.map_map, List.all_map, List.all_eq_true] at hc ⊢
  rw [Prod.mk.injEq, Report.mk.injEq]
  have hp : ∀ container ∈ containers, processor.processContainer _
        (processor.processContainer (Scope.outermost processor.rootName model) container).1 = _ :=
    fun container hm ↦ processor.processContainer_of_settled
      (settled_of_isClean hs (hn container hm) (hc container hm))
  constructor
  · apply List.map_congr_left
    intro container hm
    simp only [Function.comp_apply, hp container hm]
  · apply List.map_congr_left
    intro container hm
    simp only [Function.comp_apply, hp container hm]
    rfl

/-- Of a loop over two parties there are left a token whose name is not in scope, braces that open
or close alone, and, for the second party, nothing in place of its missing name. Processing that
again leaves it as it is. -/
theorem process_process_loop :
    let line : Block :=
      ⟨[.plain "\x7bparty.", ⟨"Name\x7d\x7bother.Name\x7d", .bool true⟩, .plain " \x7d\x7bopen"],
        .null⟩
    let total : Block := .ofText "\x7bno key\x7d"
    let containers : List Container :=
      [⟨"body", [.ofText "FOREACH party IN Loan.Parties", line, .ofText "ENDFOREACH", total]⟩]
    let model : Value :=
      .object [("Parties", .list [.object [("Name", .text "Ada \x7d")], .object []])]
    (∀ s ∈ model.texts, '\x7b' ∉ s.toList) ∧
      (∀ container ∈ containers, ∀ block ∈ container.blocks,
        Flat.nests false block.chars = false) ∧
      (Processor.default.process containers model).2.isClean = true ∧
      Processor.default.process (Processor.default.process containers model).1 model =
        ((Processor.default.process containers model).1,
          ⟨(Processor.default.process containers model).2.containers.map
            ContainerReport.quiet⟩) := by
  intro line total containers model
  have ht : ∀ s ∈ model.texts, '\x7b' ∉ s.toList := by decide
  have hn : ∀ container ∈ containers, ∀ block ∈ container.blocks,
      Flat.nests false block.chars = false := by decide
  have hl : Marker.ofBlock? line = none := by decide
  have hm : Marker.ofBlock? total = none := by decide
  have hr : (Scope.outermost "Loan" model).resolveItems "Loan.Parties" =
      [.object [("Name", .text "Ada \x7d")], .object []] := rfl
  have hd : Marker.closer? (.forEach "party" "Loan.Parties")
      ([line] ++ .ofText "ENDFOREACH" :: [total]) = some 1 := by decide
  have he : expand true [.ofText "FOREACH party IN Loan.Parties", line, .ofText "ENDFOREACH", total]
      (.outermost "Loan" model) = _ := expand_closed (by decide) rfl hd
  simp only [Expansion.ofPart, hr, Expansion.forItems, expand_nil,
    expand_loose (Marker.opens_of_ofBlock?_none hl),
    expand_loose (Marker.opens_of_ofBlock?_none hm), Expansion.aborted_cons,
    Expansion.aborted_empty, Expansion.aborted_append, Bool.false_eq_true, if_false,
    Expansion.ofLoose, hl, hm] at he
  have hz : Marker.count (expand true
      [.ofText "FOREACH party IN Loan.Parties", line, .ofText "ENDFOREACH", total]
      (.outermost "Loan" model)).blocks = 0 := by
    rw [he]
    decide
  have hc : (Processor.default.process containers model).2.isClean = true := by
    simp only [process, Report.isClean, containers, List.map_cons, List.map_nil, List.all_cons,
      List.all_nil, Bool.and_true, processContainer, default,
      extraPasses_of_count_eq_zero _ _ hz, hz]
    simp only [he]
    rfl
  exact ⟨ht, hn, hc, process_process .default ht hn hc⟩

end Processor

end LoanClosing
