import LoanClosing.Proofs.Text.Parts
import LoanClosing.Settings.LogFilter

/-!
# Quiet targets

Every target that a filter text sets stands in the text, so that keeping targets quiet never takes
the place of a directive about one of them: of the directives about one place the last counts, as
if nothing were kept quiet. A target whose name stands anywhere in the text, also inside a longer
one, is not kept quiet.
-/

namespace LoanClosing

namespace LogDirective

variable {a b directive other : LogDirective} {cs : List Char} {ds : List LogDirective}

/-! ## Targets stand in the text -/

/-- A target that has been read stands in a text. -/
def Draft.Within (cs : List Char) (draft : Draft) : Prop :=
  ∀ target, draft.target = some target → target.toList <:+: cs

theorem Draft.within_of_target_eq {draft draft' : Draft} (h : draft'.target = draft.target)
    (hd : draft.Within cs) : draft'.Within cs :=
  fun target ht ↦ hd target (h ▸ ht)

theorem Draft.within_part {draft : Draft} {first last : Nat}
    (h : draft.target = some (part cs first last)) : draft.Within cs := by
  intro target ht
  rw [h, Option.some.injEq] at ht
  subst ht
  rw [part, String.toList_ofList]
  exact Text.byteSlice_infix cs first last

/-- One character: the target is a part of the text or the one from before. -/
theorem step_within {place : Nat} {c : Char} {progress progress' : Progress}
    {draft draft' : Draft} (h : step cs place c draft progress = .ok (progress', draft'))
    (hd : draft.Within cs) : draft'.Within cs := by
  cases progress with
  | start =>
    simp only [step] at h
    split at h
    · cases h; exact hd
    · split at h
      · cases h; exact hd
      · cases h
  | levelOrTarget =>
    simp only [step] at h
    split at h
    · cases h; exact Draft.within_part rfl
    · split at h
      · cases h; exact Draft.within_part rfl
      · cases h; exact hd
  | span first =>
    simp only [step] at h
    split at h
    · cases h; exact Draft.within_of_target_eq rfl hd
    · split at h
      · cases h; exact Draft.within_of_target_eq rfl hd
      · cases h; exact hd
  | field first =>
    simp only [step] at h
    split at h
    · split at h
      · cases h
      · split at h
        · cases h; exact Draft.within_of_target_eq rfl hd
        · cases h
    · cases h; exact hd
  | bracket =>
    simp only [step] at h
    split at h
    · cases h; exact hd
    · cases h
  | target =>
    simp only [step] at h
    split at h
    · cases h; exact hd
    · cases h
  | level first =>
    cases h
    exact hd

/-- All characters. -/
theorem steps_within {place : Nat} {state state' : Progress × Draft} {rest : List Char}
    (h : steps cs place state rest = .ok state') (hd : state.2.Within cs) :
    state'.2.Within cs := by
  induction rest generalizing place state with
  | nil =>
    cases h
    exact hd
  | cons c rest ih =>
    cases hs : step cs place c state.2 state.1 with
    | error problem =>
      rw [steps, hs] at h
      cases h
    | ok next =>
      rw [steps, hs] at h
      exact ih h (step_within hs hd)

/-- The end of a text: without an equals sign the whole text can be a target. -/
theorem finish_within {state : Progress × Draft} (h : finish cs state = .ok directive)
    (hd : state.2.Within cs) {target : String} (ht : directive.target = some target) :
    target.toList <:+: cs := by
  obtain ⟨progress, draft⟩ := state
  cases progress with
  | levelOrTarget =>
    simp only [finish] at h
    split at h
    · cases h
      cases ht
    · cases h
      cases ht
      rw [String.toList_ofList]
  | level first =>
    simp only [finish] at h
    split at h
    · cases h
      exact hd target ht
    · split at h
      · cases h
        exact hd target ht
      · cases h
  | target =>
    cases h
    exact hd target ht
  | start => cases h
  | span first => cases h
  | field first => cases h
  | bracket => cases h

/-- The target of a directive stands in the text that it was read from. -/
theorem target_infix_of_read (h : read cs = .ok directive) {target : String}
    (ht : directive.target = some target) : target.toList <:+: cs := by
  cases hs : steps cs 0 (.start, ⟨none, none, none⟩) (Text.trimChars cs) with
  | error problem =>
    rw [read, hs] at h
    cases h
  | ok state =>
    rw [read, hs] at h
    have hstart : Draft.Within cs ⟨none, none, none⟩ := by
      intro _ hnone
      cases hnone
    exact finish_within h (steps_within hs hstart) ht

/-! ## The last directive about a place -/

/-- A directive behind which no other in a list is about the same place. -/
def LastAbout (ds : List LogDirective) (directive : LogDirective) : Prop :=
  ∃ before after, ds = before ++ directive :: after ∧
    ∀ other ∈ after, other.samePlace directive = false

theorem LastAbout.mem (h : LastAbout ds directive) : directive ∈ ds := by
  obtain ⟨before, after, rfl, -⟩ := h
  exact List.mem_append_right before List.mem_cons_self

/-- Whether two directives are about one place shows in what each of them asks for. -/
theorem isSome_value_of_samePlace (h : a.samePlace b = true) :
    a.span = b.span ∧ a.field.isSome = b.field.isSome ∧
      (a.field.bind LogField.value).isNone = (b.field.bind LogField.value).isNone := by
  rw [samePlace, Bool.and_eq_true, Bool.and_eq_true, beq_iff_eq, beq_iff_eq] at h
  obtain ⟨⟨-, hspan⟩, hfield⟩ := h
  refine ⟨hspan, ?_⟩
  cases ha : a.field with
  | none =>
    cases hb : b.field with
    | none => exact ⟨rfl, rfl⟩
    | some y => simp only [ha, hb, Bool.false_eq_true] at hfield
  | some x =>
    cases hb : b.field with
    | none => simp only [ha, hb, Bool.false_eq_true] at hfield
    | some y =>
      simp only [ha, hb, LogField.same, Bool.and_eq_true] at hfield
      refine ⟨rfl, ?_⟩
      rw [Option.bind_some, Option.bind_some]
      cases hx : x.value <;> cases hy : y.value <;> simp_all

theorem isStatic_eq_of_samePlace (h : a.samePlace b = true) : a.isStatic = b.isStatic := by
  obtain ⟨hspan, -, hvalue⟩ := isSome_value_of_samePlace h
  rw [isStatic, isStatic, hspan, hvalue]

theorem isNarrow_eq_of_samePlace (h : a.samePlace b = true) : a.isNarrow = b.isNarrow := by
  obtain ⟨hspan, hfield, -⟩ := isSome_value_of_samePlace h
  rw [isNarrow, isNarrow, hspan, hfield]

/-- Adding a directive leaves those about other places. -/
theorem mem_addTo : other ∈ directive.addTo ds ↔
    other = directive ∨ other ∈ ds ∧ directive.samePlace other = false := by
  rw [addTo]
  split
  case isTrue h =>
    obtain ⟨old, hold, hsame⟩ := List.any_eq_true.1 h
    rw [List.mem_map]
    constructor
    · rintro ⟨d, hd, rfl⟩
      by_cases hs : directive.samePlace d = true
      · rw [if_pos hs]
        exact .inl rfl
      · rw [if_neg hs]
        exact .inr ⟨hd, Bool.eq_false_iff.2 hs⟩
    · rintro (rfl | ⟨hd, hs⟩)
      · exact ⟨old, hold, if_pos hsame⟩
      · exact ⟨other, hd, if_neg (Bool.eq_false_iff.1 hs)⟩
  case isFalse h =>
    have hnone : other ∈ ds → directive.samePlace other = false := by
      intro hd
      by_contra hs
      exact h (List.any_eq_true.2 ⟨other, hd, Bool.of_not_eq_false hs⟩)
    rw [List.mem_append, List.mem_singleton]
    constructor
    · rintro (hd | rfl)
      · exact .inr ⟨hd, hnone hd⟩
      · exact .inl rfl
    · rintro (rfl | ⟨hd, -⟩)
      · exact .inr rfl
      · exact .inl hd

/-- The directives of a list that counts from the end. -/
theorem lastAbout_append_singleton : LastAbout (ds ++ [directive]) other ↔
    other = directive ∨ LastAbout ds other ∧ directive.samePlace other = false := by
  constructor
  · rintro ⟨before, after, heq, hafter⟩
    rcases List.eq_nil_or_concat' after with rfl | ⟨after, last, rfl⟩
    · have := List.append_inj' heq rfl
      exact .inl (List.cons.inj this.2).1.symm
    · rw [← List.cons_append, ← List.append_assoc] at heq
      obtain ⟨hds, hlast⟩ := List.append_inj' heq rfl
      obtain rfl := (List.cons.inj hlast).1
      refine .inr ⟨⟨before, after, hds, fun d hd ↦ ?_⟩, ?_⟩
      · exact hafter d (List.mem_append_left _ hd)
      · exact hafter _ (List.mem_append_right _ (List.mem_singleton_self _))
  · rintro (rfl | ⟨⟨before, after, rfl, hafter⟩, hsame⟩)
    · exact ⟨ds, [], rfl, List.forall_mem_nil _⟩
    · refine ⟨before, after ++ [directive], by rw [List.append_assoc, List.cons_append], ?_⟩
      intro d hd
      rcases List.mem_append.1 hd with hd | hd
      · exact hafter d hd
      · rw [List.mem_singleton.1 hd]
        exact hsame

/-- Adding directives one after another keeps the last about each place. -/
theorem mem_foldl_addTo :
    other ∈ ds.foldl (fun held d ↦ d.addTo held) [] ↔ LastAbout ds other := by
  induction ds using List.reverseRecOn with
  | nil =>
    refine iff_of_false List.not_mem_nil ?_
    rintro ⟨before, after, heq, -⟩
    exact List.append_ne_nil_of_right_ne_nil before (List.cons_ne_nil _ _) heq.symm
  | append_singleton ds last ih =>
    rw [List.foldl_append, List.foldl_cons, List.foldl_nil, mem_addTo, ih,
      lastAbout_append_singleton]

/-- Of a kind that does not change about one place the last are the last of all. -/
theorem lastAbout_filter {kind : LogDirective → Bool}
    (hkind : ∀ a b, a.samePlace b = true → kind a = kind b) :
    LastAbout (ds.filter kind) other ↔ kind other = true ∧ LastAbout ds other := by
  induction ds using List.reverseRecOn with
  | nil =>
    refine iff_of_false ?_ fun h ↦ ?_
    · rintro ⟨before, after, heq, -⟩
      exact List.append_ne_nil_of_right_ne_nil before (List.cons_ne_nil _ _) heq.symm
    · obtain ⟨-, before, after, heq, -⟩ := h
      exact List.append_ne_nil_of_right_ne_nil before (List.cons_ne_nil _ _) heq.symm
  | append_singleton ds last ih =>
    rw [List.filter_append, lastAbout_append_singleton]
    by_cases hlast : kind last = true
    · rw [List.filter_cons_of_pos hlast, List.filter_nil, lastAbout_append_singleton, ih]
      constructor
      · rintro (rfl | ⟨⟨hk, hd⟩, hs⟩)
        · exact ⟨hlast, .inl rfl⟩
        · exact ⟨hk, .inr ⟨hd, hs⟩⟩
      · rintro ⟨hk, rfl | ⟨hd, hs⟩⟩
        · exact .inl rfl
        · exact .inr ⟨⟨hk, hd⟩, hs⟩
    · rw [List.filter_cons_of_neg hlast, List.filter_nil, List.append_nil, ih]
      constructor
      · rintro ⟨hk, hd⟩
        have hs : last.samePlace other = false := by
          by_contra h
          exact hlast ((hkind last other (Bool.of_not_eq_false h)).trans hk)
        exact ⟨hk, .inr ⟨hd, hs⟩⟩
      · rintro ⟨hk, rfl | ⟨hd, -⟩⟩
        · exact absurd hk hlast
        · exact ⟨hk, hd⟩

end LogDirective

namespace LogFilter

open LogDirective

variable {s target : String} {directive : LogDirective} {directives : List LogDirective}
  {filter : LogFilter}

/-! ## The directives of a filter -/

/-- The pieces of a text that are read as directives. -/
def pieces (s : String) : List (List Char) := (Text.splitAt ',' s.toList).filter (!·.isEmpty)

/-- The directive that keeps a target quiet. -/
def cap (target : String) : LogDirective := ⟨some target, none, none, .warn⟩

/-- Whether a directive is about a target or about something below it. -/
def isWithin (target : String) (directive : LogDirective) : Bool :=
  directive.target.any fun place ↦
    place == target || (target ++ "::").toList.isPrefixOf place.toList

theorem mem_statics_ofDirectives : directive ∈ (ofDirectives directives).statics ↔
    directive.isStatic = true ∧ LastAbout directives directive := by
  rw [ofDirectives, mem_foldl_addTo, lastAbout_filter fun _ _ ↦ isStatic_eq_of_samePlace]

theorem mem_narrow_ofDirectives : directive ∈ (ofDirectives directives).narrow ↔
    directive.isNarrow = true ∧ LastAbout directives directive := by
  rw [ofDirectives, mem_foldl_addTo, lastAbout_filter fun _ _ ↦ isNarrow_eq_of_samePlace]

/-- What can be read is the filter of directives: those of the text, or one for an empty text. -/
theorem exists_of_read (h : read s = .ok filter) :
    ∃ directives, readAll (pieces s) = .ok directives ∧
      filter = ofDirectives
        (if directives = [] then [⟨none, none, none, .error⟩] else directives) := by
  rw [read, ← pieces] at h
  cases hr : readAll (pieces s) with
  | error problem =>
    rw [hr] at h
    cases h
  | ok directives =>
    rw [hr] at h
    refine ⟨directives, rfl, ?_⟩
    cases directives with
    | nil =>
      cases h
      rfl
    | cons d ds =>
      cases h
      rw [if_neg (List.cons_ne_nil _ _)]

/-- The target of every directive that is read stands in one of the texts. -/
theorem exists_infix_of_readAll {texts : List (List Char)} (h : readAll texts = .ok directives)
    (hd : directive ∈ directives) (ht : directive.target = some target) :
    ∃ cs ∈ texts, target.toList <:+: cs := by
  induction texts generalizing directives with
  | nil =>
    cases h
    cases hd
  | cons cs texts ih =>
    cases hr : LogDirective.read cs with
    | error problem =>
      rw [readAll, hr] at h
      cases h
    | ok first =>
      cases hm : readAll texts with
      | error problem =>
        rw [readAll, hr, hm] at h
        cases h
      | ok more =>
        rw [readAll, hr, hm] at h
        cases h
        rcases List.mem_cons.1 hd with rfl | hd
        · exact ⟨cs, List.mem_cons_self, target_infix_of_read hr ht⟩
        · obtain ⟨other, ho, hi⟩ := ih hm hd
          exact ⟨other, List.mem_cons_of_mem cs ho, hi⟩

/-- The target of every directive stands in the filter text. -/
theorem target_infix (h : readAll (pieces s) = .ok directives) (hd : directive ∈ directives)
    (ht : directive.target = some target) : target.toList <:+: s.toList := by
  obtain ⟨piece, hp, hi⟩ := exists_infix_of_readAll h hd ht
  have hsplit : piece ∈ Text.splitAt ',' s.toList := List.mem_of_mem_filter hp
  exact hi.trans (Text.infix_of_mem_splitAt hsplit)

/-! ## Keeping quiet -/

theorem cap_samePlace_iff : (cap target).samePlace directive = true ↔
    directive.target = some target ∧ directive.span = none ∧ directive.field = none := by
  rw [samePlace, Bool.and_eq_true, Bool.and_eq_true, beq_iff_eq, beq_iff_eq]
  cases hf : directive.field <;> simp [cap, eq_comm]

/-- One target: its own directive is put in if it does not stand in the text, and only those about
the same place make way. -/
theorem mem_statics_quiet : directive ∈ (quiet s filter target).statics ↔
    (¬ target.toList <:+: s.toList ∧ directive = cap target) ∨
      (directive ∈ filter.statics ∧
        (target.toList <:+: s.toList ∨ (cap target).samePlace directive = false)) := by
  rw [quiet, ← cap]
  by_cases h : target.toList <:+: s.toList
  · rw [if_pos (Text.occursIn_iff_infix.2 h)]
    simp only [h, not_true_eq_false, false_and, true_or, and_true, false_or]
  · rw [if_neg (mt Text.occursIn_iff_infix.1 h), mem_addTo]
    simp only [h, not_false_eq_true, true_and, false_or]

/-- All targets in order. -/
theorem mem_statics_foldl_quiet {targets : List String} :
    directive ∈ (targets.foldl (quiet s) filter).statics ↔
      (∃ target ∈ targets, ¬ target.toList <:+: s.toList ∧ directive = cap target) ∨
        (directive ∈ filter.statics ∧ ∀ target ∈ targets,
          target.toList <:+: s.toList ∨ (cap target).samePlace directive = false) := by
  induction targets generalizing filter with
  | nil => simp
  | cons first targets ih =>
    rw [List.foldl_cons, ih, mem_statics_quiet, List.exists_mem_cons_iff, List.forall_mem_cons]
    constructor
    · rintro (hlater | ⟨⟨hn, hd⟩ | ⟨hd, hfirst⟩, hlater⟩)
      · exact .inl (.inr hlater)
      · exact .inl (.inl ⟨hn, hd⟩)
      · exact .inr ⟨hd, hfirst, hlater⟩
    · rintro ((⟨hn, hd⟩ | hlater) | ⟨hd, hfirst, hlater⟩)
      · -- a later target is either the same one, put in again, or about another place
        by_cases hm : first ∈ targets
        · exact .inl ⟨first, hm, hn, hd⟩
        · refine .inr ⟨.inl ⟨hn, hd⟩, fun later hl ↦ .inr ?_⟩
          rw [Bool.eq_false_iff, Ne, cap_samePlace_iff, hd]
          rintro ⟨heq, -, -⟩
          exact hm (Option.some.inj heq ▸ hl)
      · exact .inl hlater
      · exact .inr ⟨.inr ⟨hd, hfirst⟩, hlater⟩

theorem narrow_foldl_quiet (targets : List String) :
    (targets.foldl (quiet s) filter).narrow = filter.narrow := by
  induction targets generalizing filter with
  | nil => rfl
  | cons first targets ih =>
    rw [List.foldl_cons, ih, quiet]
    split <;> rfl

/-- A target that no directive of a filter has is kept quiet exactly if it does not stand in the
text. -/
theorem cap_mem_foldl_quiet {targets : List String} (hmem : target ∈ targets)
    (hnone : ∀ d ∈ filter.statics, d.target ≠ some target) :
    cap target ∈ (targets.foldl (quiet s) filter).statics ↔ ¬ target.toList <:+: s.toList := by
  rw [mem_statics_foldl_quiet]
  constructor
  · rintro (⟨other, -, hn, heq⟩ | ⟨hd, -⟩)
    · have htarget : target = other := Option.some.inj (congrArg LogDirective.target heq)
      rw [htarget]
      exact hn
    · exact absurd rfl (hnone (cap target) hd)
  · intro hn
    exact .inl ⟨target, hmem, hn, rfl⟩

/-- About a target that stands in the text, keeping targets quiet changes nothing. -/
theorem mem_foldl_quiet_of_infix {targets : List String} (ht : directive.target = some target)
    (hi : target.toList <:+: s.toList) :
    directive ∈ (targets.foldl (quiet s) filter).statics ↔ directive ∈ filter.statics := by
  rw [mem_statics_foldl_quiet]
  constructor
  · rintro (⟨other, -, hn, rfl⟩ | ⟨hd, -⟩)
    · obtain rfl : other = target := Option.some.inj ht
      exact absurd hi hn
    · exact hd
  · intro hd
    refine .inr ⟨hd, fun other _ ↦ ?_⟩
    by_cases ho : other = target
    · exact .inl (ho ▸ hi)
    · refine .inr ?_
      rw [Bool.eq_false_iff, Ne, cap_samePlace_iff, ht]
      rintro ⟨heq, -, -⟩
      exact ho (Option.some.inj heq).symm

/-- In the filter of a level, a target that no directive of the level has is kept quiet exactly if
its name does not stand in the level at all. About a target that a directive has, there are the
directives of the level that are the last about their place, and no others. -/
theorem ofLevel_quiet (h : ofLevel s = .ok filter) :
    ∃ directives, readAll (pieces s) = .ok directives ∧ ∀ target ∈ quietTargets,
      ((∀ d ∈ directives, d.target ≠ some target) →
        (cap target ∈ filter.statics ↔ ¬ target.toList <:+: s.toList)) ∧
      ((∃ d ∈ directives, d.target = some target) → ∀ d : LogDirective, d.target = some target →
        (d ∈ filter.statics ↔ d.isStatic = true ∧ LastAbout directives d) ∧
        (d ∈ filter.narrow ↔ d.isNarrow = true ∧ LastAbout directives d)) := by
  cases hr : read s with
  | error problem =>
    rw [ofLevel, hr] at h
    cases h
  | ok plain =>
    rw [ofLevel, hr] at h
    cases h
    obtain ⟨directives, hread, rfl⟩ := exists_of_read hr
    refine ⟨directives, hread, fun target htarget ↦ ⟨fun hnone ↦ ?_, fun hsome d hd ↦ ?_⟩⟩
    · refine cap_mem_foldl_quiet htarget fun d hd ↦ ?_
      obtain ⟨-, hlast⟩ := mem_statics_ofDirectives.1 hd
      have hmem := hlast.mem
      split at hmem
      · rw [List.mem_singleton.1 hmem]
        exact (Option.some_ne_none target).symm
      · exact hnone d hmem
    · obtain ⟨named, hnamed, htn⟩ := hsome
      have hstands : target.toList <:+: s.toList := target_infix hread hnamed htn
      rw [if_neg (List.ne_nil_of_mem hnamed), mem_foldl_quiet_of_infix hd hstands,
        narrow_foldl_quiet]
      exact ⟨mem_statics_ofDirectives, mem_narrow_ofDirectives⟩

theorem ofLevel_quiet_hyper :
    ∃ filter, ofLevel "info,hyper=trace" = .ok filter ∧ cap "tower" ∈ filter.statics ∧
      ⟨some "hyper", none, none, .trace⟩ ∈ filter.statics := by
  have hfilter : ofLevel "info,hyper=trace" = .ok
      ⟨[⟨none, none, none, .info⟩, ⟨some "hyper", none, none, .trace⟩, cap "h2", cap "tower"],
        []⟩ := by rfl
  have hlevel : readAll (pieces "info,hyper=trace") =
      .ok [⟨none, none, none, .info⟩, ⟨some "hyper", none, none, .trace⟩] := by rfl
  obtain ⟨directives, hread, hquiet⟩ := ofLevel_quiet hfilter
  obtain rfl := Except.ok.inj (hlevel.symm.trans hread)
  refine ⟨_, hfilter, ?_, ?_⟩
  · have htower := (hquiet "tower" (by decide)).1 (by decide)
    exact htower.2 (mt Text.occursIn_iff_infix.2 (by decide))
  · have hhyper := (hquiet "hyper" (by decide)).2 ⟨_, .tail _ (.head _), rfl⟩
    refine (hhyper ⟨some "hyper", none, none, .trace⟩ rfl).1.2 ⟨rfl, ?_⟩
    exact ⟨[⟨none, none, none, .info⟩], [], rfl, List.forall_mem_nil _⟩

/-- A longer target that starts alike keeps a target from being quiet, though no directive of the
level is about it. -/
theorem ofLevel_tower_http :
    ofLevel "tower_http=debug" =
      .ok ⟨[⟨some "tower_http", none, none, .debug⟩, cap "hyper", cap "h2"], []⟩ ∧
    readAll (pieces "tower_http=debug") = .ok [⟨some "tower_http", none, none, .debug⟩] ∧
    isWithin "tower" ⟨some "tower_http", none, none, .debug⟩ = false ∧
    cap "tower" ∉ [⟨some "tower_http", none, none, .debug⟩, cap "hyper", cap "h2"] := by
  refine ⟨by rfl, by rfl, ?_, ?_⟩
  · decide
  · decide

end LogFilter

end LoanClosing
