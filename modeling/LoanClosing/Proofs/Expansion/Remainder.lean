import LoanClosing.Proofs.Expansion.Passes

/-!
# What a stopped expansion leaves unprocessed

Filling decides nothing about where an expansion stops, and it stops at one place only. There the
first expansion of a container leaves the rest as written. A further pass keeps that rest, unless
filling has put an opener in front of it that finds its closer in the rest: the pass then takes the
two for a part like any other, and the beginning of the rest is lost with it or repeated.
-/

namespace LoanClosing

namespace Marker

/-- A closer that is not among the first paragraphs is one of those that follow. -/
theorem exists_of_closer?_append {opener : Marker} {first rest : List Block} {n : Nat}
    (hf : closer? opener first = none) (h : closer? opener (first ++ rest) = some n) :
    ∃ inside closer after, rest = inside ++ closer :: after ∧ n = (first ++ inside).length := by
  obtain ⟨body, closer, after, he, rfl⟩ := exists_of_closer?_some h
  rw [he] at h
  obtain ⟨inside, rfl, rfl⟩ | ⟨inside, rfl, hi⟩ := List.append_eq_append_iff.mp he
  · exact ⟨inside, closer, after, rfl, rfl⟩
  · cases inside with
    | nil => exact ⟨[], closer, after, hi.symm, by simp⟩
    | cons block inside =>
      obtain ⟨rfl, rfl⟩ := List.cons.inj hi
      rw [closer?, closerFrom?_replace h inside] at hf
      exact absurd hf (Option.some_ne_none _)

end Marker

namespace Expansion

/-- Whether a repeated part is stopped depends on whether it is stopped for the items. -/
theorem aborted_forItems_congr {first other : Value → Expansion}
    (h : ∀ item, (first item).aborted = (other item).aborted) (items : List Value) :
    (forItems first items).aborted = (forItems other items).aborted := by
  induction items with
  | nil => rfl
  | cons item items ih =>
    simp only [forItems, h item]
    split
    · exact h item
    · exact ih

/-- Whether a part is stopped depends on whether it is stopped in the scopes it is expanded in. -/
theorem aborted_ofPart_congr {first other : Scope → Expansion}
    (h : ∀ scope, (first scope).aborted = (other scope).aborted) (scope : Scope)
    (marker : Marker) :
    (ofPart first scope marker).aborted = (ofPart other scope marker).aborted := by
  cases marker with
  | ifThen condition =>
    simp only [ofPart]
    split
    · exact h scope
    · rfl
  | forEach item source => exact aborted_forItems_congr (fun _ ↦ h _) _
  | endIf => rfl
  | endForEach => rfl

end Expansion

/-- Filling does not decide whether an expansion is stopped. -/
theorem aborted_expand (fills : Bool) (blocks : List Block) (scope : Scope) :
    (expand fills blocks scope).aborted = (expand false blocks scope).aborted := by
  induction blocks using Marker.induction_on_parts generalizing scope with
  | nil => simp
  | loose block rest hl ih =>
    rw [expand_loose hl, expand_loose hl, Expansion.aborted_cons, Expansion.aborted_cons, ih]
  | unclosed block rest marker hm ho hc => simp [expand_unclosed hm ho hc]
  | closed block body closer after marker hm ho hc ihb iha =>
    rw [expand_closed hm ho hc, expand_closed hm ho hc]
    simp only [Expansion.aborted_ofPart_congr ihb scope marker]
    split
    · rfl
    · exact iha scope

namespace Stops

variable {fills : Bool} {scope : Scope}

/-- Filling does not decide whether an expansion stops at the first paragraph. -/
theorem unfilled {blocks : List Block} (h : Stops fills scope blocks) :
    Stops false scope blocks := by
  cases h with
  | unclosed hm ho hc => exact .unclosed hm ho hc
  | part hm ho hc ha =>
    refine .part hm ho hc ?_
    rwa [Expansion.aborted_ofPart_congr (aborted_expand fills _)] at ha

/-- Where an expansion stops although the opener has its closer, the part between is stopped. -/
theorem aborted_part {block closer : Block} {body after : List Block} {marker : Marker}
    (h : Stops fills scope (block :: (body ++ closer :: after)))
    (hm : Marker.ofBlock? block = some marker)
    (hc : marker.closer? (body ++ closer :: after) = some body.length) :
    (Expansion.ofPart (expand fills body) scope marker).aborted = true := by
  generalize he : block :: (body ++ closer :: after) = blocks at h
  cases h with
  | unclosed hm' _ hc' =>
    obtain ⟨rfl, rfl⟩ := List.cons.inj he
    obtain rfl := Option.some.inj (hm.symm.trans hm')
    rw [hc] at hc'
    exact absurd hc' (Option.some_ne_none _)
  | part hm' _ hc' ha =>
    obtain ⟨rfl, hb⟩ := List.cons.inj he
    obtain rfl := Option.some.inj (hm.symm.trans hm')
    rw [← hb, hc] at hc'
    obtain ⟨rfl, -⟩ := List.append_inj hb (Option.some.inj hc')
    exact ha

/-- An expansion is stopped behind paragraphs that expand to their end. -/
theorem aborted_append {done rest : List Block} (hr : Stops fills scope rest)
    (hd : (expand fills done scope).aborted = false) :
    (expand fills (done ++ rest) scope).aborted = true := by
  obtain ⟨tally, he⟩ := hr.exists_expand_eq
  rw [expand_append hd, he, Expansion.aborted_append, Expansion.aborted_stopped]

/-- Where an expansion stops at the first paragraph, it stops however little follows. -/
theorem aborted_of_append {first rest : List Block} (h : Stops fills scope (first ++ rest))
    (hn : first ≠ []) : (expand fills first scope).aborted = true := by
  obtain ⟨block, first, rfl⟩ := List.exists_cons_of_ne_nil hn
  obtain ⟨_, _, he, ho⟩ := h.exists_opens
  obtain ⟨rfl, -⟩ := List.cons.inj he
  obtain ⟨marker, hm, ho⟩ := Marker.exists_of_opens ho
  cases hc : marker.closer? first with
  | none => simp [expand_unclosed hm ho hc]
  | some n =>
    obtain ⟨body, closer, after, rfl, rfl⟩ := Marker.exists_of_closer?_some hc
    have hr := Marker.closerFrom?_replace hc (after ++ rest)
    have ha := aborted_part (by simpa using h) hm hr
    rw [expand_closed hm ho hc]
    simp only [ha, if_true, Expansion.aborted_stopped]

/-- What stops at its first paragraph has no beginning that expands to its end. -/
theorem eq_nil_of_append {first rest : List Block} (h : Stops fills scope (first ++ rest))
    (ha : (expand fills first scope).aborted = false) : first = [] := by
  by_contra hn
  rw [h.aborted_of_append hn] at ha
  cases ha

/-- An expansion stops at one place only. -/
theorem append_inj {done rest done' rest' : List Block} (he : done ++ rest = done' ++ rest')
    (hd : (expand fills done scope).aborted = false) (hr : Stops fills scope rest)
    (hd' : (expand fills done' scope).aborted = false) (hr' : Stops fills scope rest') :
    done = done' ∧ rest = rest' := by
  obtain ⟨between, rfl, rfl⟩ | ⟨between, rfl, rfl⟩ := List.append_eq_append_iff.mp he
  · rw [expand_append hd, Expansion.aborted_append] at hd'
    obtain rfl := hr.eq_nil_of_append hd'
    simp
  · rw [expand_append hd', Expansion.aborted_append] at hd
    obtain rfl := hr'.eq_nil_of_append hd
    simp

end Stops

/-- A stopped expansion stops somewhere. -/
theorem exists_stops {fills : Bool} {scope : Scope} {blocks : List Block}
    (h : (expand fills blocks scope).aborted = true) :
    ∃ done rest, blocks = done ++ rest ∧ (expand fills done scope).aborted = false ∧
      Stops fills scope rest := by
  obtain ⟨done, rest, rfl, hd, rfl | hr⟩ := exists_split fills scope blocks
  · rw [List.append_nil, hd] at h
    cases h
  · exact ⟨done, rest, rfl, hd, hr⟩

/-- A paragraph that is no marker is filled. -/
theorem expand_plain {block : Block} (h : Marker.ofBlock? block = none) (scope : Scope) :
    (expand true [block] scope).blocks = [block.fill scope] ∧
      (expand true [block] scope).aborted = false := by
  rw [expand_loose (Marker.opens_of_ofBlock?_none h), expand_nil]
  simp [Expansion.ofLoose, Expansion.ofPlain, h]

/-- An expansion without filling gets to an opener among the first paragraphs whose closer is one
of the paragraphs that follow, and to the end of the part between the two. -/
inductive Straddles (scope : Scope) : List Block → List Block → Prop
  | intro {done before inside after : List Block} {opener closer : Block} {marker : Marker}
      (hd : (expand false done scope).aborted = false)
      (hm : Marker.ofBlock? opener = some marker) (ho : marker.isOpening = true)
      (hc : marker.closer? (before ++ inside ++ closer :: after) = some (before ++ inside).length)
      (ha : (Expansion.ofPart (expand false (before ++ inside)) scope marker).aborted = false) :
      Straddles scope (done ++ opener :: before) (inside ++ closer :: after)

variable {scope : Scope} {front rest : List Block}

/-- Without an opener among the first paragraphs there is none whose closer follows. -/
theorem Straddles.exists_opens (h : Straddles scope front rest) :
    ∃ block ∈ front, Marker.opens block = true := by
  cases h with
  | intro hd hm ho => exact ⟨_, by simp, Marker.opens_of_isOpening hm ho⟩

/-- Where the closer of an opener is in what follows, a pass leaves less than that at the end, and
nothing that opens a part in front of it. -/
theorem Straddles.exists_lost (h : Straddles scope front rest) :
    ∃ lost tail kept, lost ≠ [] ∧ rest = lost ++ tail ∧
      pass scope (front ++ rest) = kept ++ tail ∧
      ∀ block ∈ kept, Marker.opens block = false := by
  cases h with
  | @intro done before inside after opener closer marker hd hm ho hc ha =>
    obtain ⟨done', tail, rfl, hp, hl, -⟩ := exists_pass_eq scope after
    have he : done ++ opener :: before ++ (inside ++ closer :: (done' ++ tail)) =
        done ++ opener :: (before ++ inside ++ closer :: (done' ++ tail)) := by simp
    refine ⟨inside ++ closer :: done', tail, (expand false done scope).blocks ++
      (Expansion.ofPart (expand false (before ++ inside)) scope marker).blocks ++
      pass scope done', by simp, by simp, ?_, ?_⟩
    · rw [he, pass, expand_append hd, expand_closed hm ho hc]
      simp only [ha, Bool.false_eq_true, if_false, Expansion.blocks_append, List.append_assoc]
      rw [← hp, pass]
    · intro block hb
      simp only [List.mem_append] at hb
      obtain (hb | hb) | hb := hb
      · exact loose_expand done scope hd block hb
      · exact Expansion.loose_ofPart (loose_expand _) scope marker ha block hb
      · exact hl block hb

/-- What begins with an opener is not kept at the end where it has the closer of one in front. -/
theorem Straddles.not_suffix_pass (h : Straddles scope front rest) (hr : Stops false scope rest) :
    ¬ rest <:+ pass scope (front ++ rest) := by
  obtain ⟨lost, tail, kept, hn, he, hp, hl⟩ := h.exists_lost
  obtain ⟨first, lost, rfl⟩ := List.exists_cons_of_ne_nil hn
  obtain ⟨block, more, hb, ho⟩ := hr.exists_opens
  obtain ⟨rfl, -⟩ := List.cons.inj (hb.symm.trans he)
  intro hs
  rw [hp, he, List.suffix_append_self_iff] at hs
  rw [hl block (hs.subset List.mem_cons_self)] at ho
  cases ho

/-- Where an expansion stops in front, it stops with more paragraphs behind, too, unless these have
the closer of the opener it stops at. -/
theorem Stops.append_or_straddles {done : List Block}
    (hd : (expand false done scope).aborted = false) (hf : Stops false scope front)
    (rest : List Block) :
    Stops false scope (front ++ rest) ∨ Straddles scope (done ++ front) rest := by
  cases hf with
  | @unclosed opener before marker hm ho hc =>
    cases hr : marker.closer? (before ++ rest) with
    | none => exact .inl (.unclosed hm ho hr)
    | some n =>
      obtain ⟨inside, closer, after, rfl, rfl⟩ := Marker.exists_of_closer?_append hc hr
      rw [← List.append_assoc] at hr
      cases ha : (Expansion.ofPart (expand false (before ++ inside)) scope marker).aborted with
      | true =>
        have hs := Stops.part hm ho hr ha
        exact .inl (by simpa using hs)
      | false => exact .inr (.intro hd hm ho hr ha)
  | @part opener closer body after marker hm ho hc ha =>
    have hs := Stops.part hm ho (Marker.closerFrom?_replace hc (after ++ rest)) ha
    exact .inl (by simpa using hs)

/-- A pass keeps at the end of what it leaves the paragraphs at which it would stop by themselves,
unless an opener in front of them has its closer among them. -/
theorem suffix_pass_iff (hr : Stops false scope rest) (front : List Block) :
    rest <:+ pass scope (front ++ rest) ↔ ¬ Straddles scope front rest := by
  refine ⟨fun hs h ↦ h.not_suffix_pass hr hs, fun h ↦ ?_⟩
  obtain ⟨done, front, rfl, hd, hf⟩ := exists_split false scope front
  have hs : front ++ rest = [] ∨ Stops false scope (front ++ rest) := by
    cases hf with
    | inl hf => exact .inr (by rwa [hf, List.nil_append])
    | inr hf => exact .inr ((hf.append_or_straddles hd rest).resolve_right h)
  rw [List.append_assoc, pass, blocks_expand_append_of_stops hd hs, ← List.append_assoc]
  exact List.suffix_append _ rest

namespace Processor

/-- A container whose first expansion is stopped is split at the one place where it stops: what is
in front is expanded to its end, the rest is left as written. The result ends with that rest if
nothing is expanded again, or if no opener that filling has put in front of the rest has its closer
in it, with a part between them that expands to its end; otherwise it does not. -/
theorem exists_remainder (processor : Processor) (model : Value) (container : Container) :
    let scope := Scope.outermost processor.rootName model
    let processed := processor.processContainer scope container
    processed.2.aborted = true →
    ∃ done rest, container.blocks = done ++ rest ∧
      (expand true done scope).aborted = false ∧ Stops true scope rest ∧
      (∀ done' rest', container.blocks = done' ++ rest' →
        (expand true done' scope).aborted = false → Stops true scope rest' →
        done = done' ∧ rest = rest') ∧
      (expand true container.blocks scope).blocks = (expand true done scope).blocks ++ rest ∧
      (rest <:+ processed.1.blocks ↔ processor.maxExtraPasses = 0 ∨
        ¬ Straddles scope (expand true done scope).blocks rest) := by
  intro scope processed h
  have ha : (expand true container.blocks scope).aborted = true := h
  obtain ⟨done, rest, he, hd, hr⟩ := exists_stops ha
  have hm : (expand true container.blocks scope).blocks =
      (expand true done scope).blocks ++ rest := by
    rw [he]
    exact blocks_expand_append_of_stops hd (.inr hr)
  have hp : processed.1.blocks = (extraPasses scope processor.maxExtraPasses
      ((expand true done scope).blocks ++ rest)).2 := by
    rw [← hm]
    rfl
  refine ⟨done, rest, he, hd, hr, ?_, hm, ?_⟩
  · intro done' rest' he' hd' hr'
    exact Stops.append_inj (he.symm.trans he') hd hr hd' hr'
  · rw [hp]
    cases processor.maxExtraPasses with
    | zero => simp [extraPasses]
    | succ passes =>
      rw [extraPasses_blocks, suffix_pass_iff hr.unfilled]
      simp

/-- A note in front of a part without its closer is filled, and the part is kept. -/
theorem exists_remainder_note :
    let note : Block := .ofText "\x7bLoan.Note\x7d"
    let rest : List Block :=
      [.ofText "IF Loan.Jumbo", .ofText "Jumbo rider", .ofText "ENDFOREACH"]
    let model : Value := .object [("Note", .text "Draft")]
    let scope := Scope.outermost "Loan" model
    let processed := Processor.default.processContainer scope ⟨"body", note :: rest⟩
    processed.2.aborted = true ∧ rest <:+ processed.1.blocks := by
  intro note rest model scope processed
  have hi : Marker.ofBlock? (.ofText "IF Loan.Jumbo") = some (.ifThen "Loan.Jumbo") := by decide
  have hl : Marker.ofBlock? note = none := by decide
  have hs : Stops true scope rest := .unclosed hi rfl (by decide)
  obtain ⟨hb, hd⟩ := expand_plain hl scope
  have ha : processed.2.aborted = true := hs.aborted_append hd
  obtain ⟨done, kept, -, -, -, hu, -, hk⟩ :=
    exists_remainder .default model ⟨"body", note :: rest⟩ ha
  obtain ⟨rfl, rfl⟩ := hu [note] rest rfl hd hs
  refine ⟨ha, hk.mpr (.inr fun h ↦ ?_)⟩
  have hf : note.fill scope = .ofText "Draft" := rfl
  obtain ⟨block, hm, ho⟩ := h.exists_opens
  have hm : block ∈ [note.fill scope] := hb ▸ hm
  rw [List.mem_singleton, hf] at hm
  rw [hm] at ho
  exact absurd ho (by decide)

/-- A note that reads as the opener of a loop finds a closer in the part that was left as written.
There is nothing to repeat, so the part is lost although the first expansion stopped at it. -/
theorem remainder_lost_to_note :
    let note : Block := .ofText "\x7bLoan.Note\x7d"
    let rest : List Block :=
      [.ofText "IF Loan.Jumbo", .ofText "Jumbo rider", .ofText "ENDFOREACH"]
    let model : Value := .object [("Note", .text "FOREACH party IN Loan.Parties")]
    let scope := Scope.outermost "Loan" model
    let processed := Processor.default.processContainer scope ⟨"body", note :: rest⟩
    processed.2.aborted = true ∧ (expand true [note] scope).aborted = false ∧
      Stops true scope rest ∧ processed.1.blocks = [] ∧ ¬ rest <:+ processed.1.blocks := by
  intro note rest model scope processed
  have hi : Marker.ofBlock? (.ofText "IF Loan.Jumbo") = some (.ifThen "Loan.Jumbo") := by decide
  have hl : Marker.ofBlock? note = none := by decide
  have hs : Stops true scope rest := .unclosed hi rfl (by decide)
  obtain ⟨hb, hd⟩ := expand_plain hl scope
  have ha : processed.2.aborted = true := hs.aborted_append hd
  have hf : note.fill scope = .ofText "FOREACH party IN Loan.Parties" := rfl
  have hr : scope.resolveItems "Loan.Parties" = [] := rfl
  have hp : pass scope (.ofText "FOREACH party IN Loan.Parties" :: rest) = [] := by
    have ho : Marker.ofBlock? (.ofText "FOREACH party IN Loan.Parties") =
        some (.forEach "party" "Loan.Parties") := by decide
    have he : expand false (.ofText "FOREACH party IN Loan.Parties" ::
        ([.ofText "IF Loan.Jumbo", .ofText "Jumbo rider"] ++ .ofText "ENDFOREACH" :: [])) scope =
        _ := expand_closed ho rfl (by decide)
    simp only [Expansion.ofPart, hr, Expansion.forItems, Expansion.aborted_empty,
      Bool.false_eq_true, if_false, expand_nil, Expansion.empty_append] at he
    exact congrArg Expansion.blocks he
  have hz : processed.1.blocks = [] := by
    change (extraPasses scope 2 (expand true ([note] ++ rest) scope).blocks).2 = []
    rw [extraPasses_blocks, blocks_expand_append_of_stops hd (.inr hs), hb, hf]
    exact hp
  refine ⟨ha, hd, hs, hz, ?_⟩
  rw [hz, List.suffix_nil]
  exact List.cons_ne_nil _ _

end Processor

end LoanClosing
