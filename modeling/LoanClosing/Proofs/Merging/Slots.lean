import LoanClosing.Proofs.Merging.Agreement

/-!
# No slot is lost

Batches may be taken while jobs of earlier ones are still merged, and all of them share the slots of
one floor. Whatever comes of a merge, its slot is free again afterwards: at any time the free slots
and the held ones together are the slots that the floor was opened with. So never more jobs are
merged than there are slots, a job that waits gets a slot as soon as one is free, and the floor does
not come to a standstill while there are jobs on it.
-/

namespace LoanClosing

namespace Floor

variable {settings : MergeSettings} {maxConcurrency : Nat} {floor next : Floor}

/-- The floors that can be reached from one where nobody works. Jobs are worked on one step at a
time; others may do anything at the desk in between; and those who wait for a batch may go away,
which takes jobs off the floor that hold no slot. -/
inductive Reached (settings : MergeSettings) (maxConcurrency : Nat) : Floor → Prop where
  | opened (desk : Desk) : Reached settings maxConcurrency (opened maxConcurrency desk)
  | work {floor next : Floor} (h : Reached settings maxConcurrency floor) {step : FloorStep}
    (hs : floor.step? settings step = some next) : Reached settings maxConcurrency next
  | atDesk {floor : Floor} (h : Reached settings maxConcurrency floor) (desk : Desk) :
    Reached settings maxConcurrency { floor with desk := desk }
  | callOff {floor : Floor} (h : Reached settings maxConcurrency floor) {place : Nat}
    {task : MergeTask} (ht : floor.tasks[place]? = some task)
    (hn : task.progress.holdsSlot = false) :
    Reached settings maxConcurrency { floor with tasks := floor.tasks.eraseIdx place }

/-! ### The slots held -/

/-- Jobs that are taken wait at first. -/
theorem held_takeBatch (floor : Floor) : floor.takeBatch.held = floor.held := by
  rw [held, held, takeBatch, List.countP_append, Nat.add_eq_left, List.countP_eq_zero]
  rintro task hm
  obtain ⟨job, -, rfl⟩ := List.mem_map.mp hm
  exact Bool.false_ne_true

/-- Progress of a task takes its slot into account and no other. -/
theorem held_set (next : Floor) {place : Nat} {task : MergeTask} (other : MergeTask)
    (ht : floor.tasks[place]? = some task) (hn : next.tasks = floor.tasks.set place other) :
    next.held + task.progress.holdsSlot.toNat = floor.held + other.progress.holdsSlot.toNat := by
  obtain ⟨hl, rfl⟩ := List.getElem?_eq_some_iff.mp ht
  have hin : floor.tasks[place].progress.holdsSlot = true → 0 < floor.held :=
    fun h ↦ List.countP_pos_iff.mpr ⟨_, List.getElem_mem hl, h⟩
  rw [held, hn, List.countP_set hl, ← held]
  cases ht : floor.tasks[place].progress.holdsSlot with
  | false => cases other.progress.holdsSlot <;> simp
  | true =>
    have := hin ht
    cases other.progress.holdsSlot <;> simp <;> omega

/-- A task that leaves the floor takes its slot with it. -/
theorem held_eraseIdx (next : Floor) {place : Nat} {task : MergeTask}
    (ht : floor.tasks[place]? = some task) (hn : next.tasks = floor.tasks.eraseIdx place) :
    next.held + task.progress.holdsSlot.toNat = floor.held := by
  obtain ⟨hl, rfl⟩ := List.getElem?_eq_some_iff.mp ht
  have hp := (List.getElem_cons_eraseIdx_perm hl).countP_eq (·.progress.holdsSlot)
  rw [held, held, hn, ← hp, List.countP_cons]
  cases floor.tasks[place].progress.holdsSlot <;> simp

/-! ### One step -/

/-- The slots of a floor, free and held. -/
def slots (floor : Floor) : Nat := floor.free + floor.held

/-- A slot that is given to a task is held from then on. -/
theorem slots_start {place : Nat} (hs : floor.start? place = some next) :
    next.slots = floor.slots := by
  unfold start? at hs
  split at hs
  · next job free ht hf =>
    obtain rfl := Option.some.inj hs
    have hh := held_set { floor with
      free := free, tasks := floor.tasks.set place ⟨job, .merging⟩ } ⟨job, .merging⟩ ht rfl
    simp only [MergeProgress.holdsSlot, Bool.toNat_false, Bool.toNat_true] at hh
    simp only [slots, hf]
    omega
  · cases hs

/-- A task that is merged is on its way to be reported with what its job comes to, an output or an
error, and the slot that it held is free. -/
theorem finish?_merging (settings : MergeSettings) {place : Nat} {job : Job}
    (ht : floor.tasks[place]? = some ⟨job, .merging⟩) :
    ∃ next, floor.finish? settings place = some next ∧ next.free = floor.free + 1 ∧
      next.held + 1 = floor.held ∧
      next.tasks[place]? = some ⟨job, .merged (job.outcome settings)⟩ := by
  obtain ⟨hl, -⟩ := List.getElem?_eq_some_iff.mp ht
  have hh := held_set { floor with
    free := floor.free + 1
    tasks := floor.tasks.set place ⟨job, .merged (job.outcome settings)⟩ }
    ⟨job, .merged (job.outcome settings)⟩ ht rfl
  refine ⟨_, by rw [finish?, ht]; rfl, rfl, hh, ?_⟩
  exact List.getElem?_set_self hl

/-- A step takes no slot away and adds none. -/
theorem slots_step {step : FloorStep} (hs : floor.step? settings step = some next) :
    next.slots = floor.slots := by
  cases step with
  | takeBatch =>
    obtain rfl := Option.some.inj hs
    rw [slots, held_takeBatch]
    rfl
  | start place => exact slots_start hs
  | finish place =>
    cases ht : floor.tasks[place]? with
    | none => simp [step?, finish?, ht] at hs
    | some task =>
      obtain ⟨job, progress⟩ := task
      cases progress with
      | merging =>
        obtain ⟨after, ha, hf, hh, -⟩ := finish?_merging settings ht
        obtain rfl := Option.some.inj (ha.symm.trans hs)
        rw [slots, slots]
        omega
      | waiting | merged => simp [step?, finish?, ht] at hs
  | report place =>
    simp only [step?, report?] at hs
    split at hs
    · next job result ht =>
      obtain rfl := Option.some.inj hs
      have hh := held_eraseIdx { floor with
        desk := floor.desk.report job result, tasks := floor.tasks.eraseIdx place } ht rfl
      exact congrArg (floor.free + ·) hh
    · cases hs

/-! ### All steps -/

/-- The slots of a floor are those that it was opened with. -/
theorem Reached.slots_eq (h : floor.Reached settings maxConcurrency) :
    floor.slots = max 1 maxConcurrency := by
  induction h with
  | opened desk => rfl
  | work _ hs ih => rw [slots_step hs, ih]
  | atDesk _ desk ih => exact ih
  | @callOff floor _ place task ht hn ih =>
    have hh := held_eraseIdx { floor with tasks := floor.tasks.eraseIdx place } ht rfl
    rw [hn] at hh
    rw [← ih]
    exact congrArg (floor.free + ·) hh

/-- Several steps lead from a floor that can be reached to another one. -/
theorem Reached.run (h : floor.Reached settings maxConcurrency) {steps : List FloorStep}
    (hs : floor.run? settings steps = some next) : next.Reached settings maxConcurrency := by
  induction steps generalizing floor with
  | nil =>
    obtain rfl : floor = next := by simpa [run?] using hs
    exact h
  | cons step steps ih =>
    rw [run?, List.foldlM_cons, Option.bind_eq_bind, Option.bind_eq_some_iff] at hs
    obtain ⟨between, hb, hs⟩ := hs
    exact ih (h.work hb) hs

/-! ### What can go on -/

/-- A task that waits gets a slot if and only if one is free. -/
theorem isSome_start?_iff {place : Nat} {job : Job}
    (ht : floor.tasks[place]? = some ⟨job, .waiting⟩) :
    (floor.start? place).isSome = true ↔ 0 < floor.free := by
  rw [start?, ht]
  cases floor.free <;> simp

/-- A task that has been merged can be reported. -/
theorem isSome_report? {place : Nat} {job : Job} {result : Except MergeError ByteArray}
    (ht : floor.tasks[place]? = some ⟨job, .merged result⟩) :
    (floor.report? place).isSome = true := by
  rw [report?, ht]
  rfl

/-- While there are tasks on a floor with slots, one of them can go on: unless some task is being
merged, all slots are free. -/
theorem exists_step (hs : 0 < floor.slots) (ht : floor.tasks ≠ []) :
    ∃ step, step ≠ .takeBatch ∧ (floor.step? settings step).isSome = true := by
  by_cases hm : ∃ task ∈ floor.tasks, task.progress.holdsSlot = true
  · obtain ⟨⟨job, progress⟩, hin, hp⟩ := hm
    obtain ⟨place, hplace⟩ := List.getElem?_of_mem hin
    cases progress with
    | merging =>
      obtain ⟨next, hn, -⟩ := finish?_merging settings hplace
      exact ⟨.finish place, FloorStep.noConfusion, by rw [step?, hn]; rfl⟩
    | waiting | merged => cases hp
  · have hfree : floor.held = 0 := by
      rw [held, List.countP_eq_zero]
      exact fun task hin hp ↦ hm ⟨task, hin, hp⟩
    obtain ⟨⟨job, progress⟩, hin⟩ := List.exists_mem_of_ne_nil _ ht
    obtain ⟨place, hplace⟩ := List.getElem?_of_mem hin
    cases progress with
    | waiting =>
      refine ⟨.start place, FloorStep.noConfusion, (isSome_start?_iff hplace).mpr ?_⟩
      rwa [slots, hfree] at hs
    | merging => exact absurd ⟨_, hin, rfl⟩ hm
    | merged result => exact ⟨.report place, FloorStep.noConfusion, isSome_report? hplace⟩

/-- However jobs are interleaved and whatever comes of them, free and held slots together are the
slots configured, of which there is at least one. So at most that many jobs are merged at a time;
when none is, all slots are free; a job that waits can be given a slot exactly while fewer are held;
a job that is merged gives its slot back with its output or its error; and as long as there are jobs
on the floor, one of them can go on. -/
theorem Reached.slots_conserved (h : floor.Reached settings maxConcurrency) :
    floor.held ≤ max 1 maxConcurrency ∧
    floor.free + floor.held = max 1 maxConcurrency ∧
    ((∀ task ∈ floor.tasks, task.progress.holdsSlot = false) →
      floor.free = max 1 maxConcurrency) ∧
    (∀ place job, floor.tasks[place]? = some ⟨job, .waiting⟩ →
      ((floor.step? settings (.start place)).isSome = true ↔
        floor.held < max 1 maxConcurrency)) ∧
    (∀ place job, floor.tasks[place]? = some ⟨job, .merging⟩ →
      ∃ next, floor.step? settings (.finish place) = some next ∧ next.free = floor.free + 1 ∧
        next.held + 1 = floor.held ∧
        next.tasks[place]? = some ⟨job, .merged (job.outcome settings)⟩) ∧
    (floor.tasks ≠ [] →
      ∃ step, step ≠ .takeBatch ∧ (floor.step? settings step).isSome = true) := by
  have hall : floor.free + floor.held = max 1 maxConcurrency := h.slots_eq
  refine ⟨by omega, hall, ?_, ?_, fun place job ht ↦ finish?_merging settings ht, ?_⟩
  · intro hn
    have hzero : floor.held = 0 := by
      rw [held, List.countP_eq_zero]
      exact fun task hin hp ↦ Bool.false_ne_true ((hn task hin).symm.trans hp)
    omega
  · intro place job ht
    rw [step?, isSome_start?_iff ht]
    omega
  · refine fun ht ↦ exists_step ?_ ht
    rw [h.slots_eq]
    omega

/-- A single slot, which a job of one batch holds while the rest of the batch and a later one wait.
Nobody else is given a slot until the merge breaks down, and then there is one again. -/
theorem slots_conserved_crowded :
    let settings : MergeSettings := ⟨⟨"Loan", 2⟩, .fragile⟩
    let late : Job := ⟨⟨4⟩, "late", ⟨"late", []⟩, .null, none, none⟩
    ∃ floor, Reached settings 0 floor ∧
      floor.tasks.map (fun task ↦ (task.job.key, task.progress.holdsSlot)) =
        [("fine", false), ("boom", true), ("other", false), ("late", false)] ∧
      floor.held = 1 ∧ floor.tasks[3]? = some ⟨late, .waiting⟩ ∧
      (floor.step? settings (.start 3)).isSome = false ∧
      ∃ next, floor.step? settings (.finish 1) = some next ∧ next.free = 1 ∧
        next.tasks[1]?.map MergeTask.progress =
          some (.merged (.error (.panicked "renderer exploded"))) := by
  intro settings late
  have hfirst : (opened 0 Ledger.boom.desk).run? settings [.takeBatch, .start 1] = some _ := rfl
  have first : Reached settings 0 _ := Reached.run (.opened Ledger.boom.desk) hfirst
  have second : Reached settings 0 _ :=
    (first.atDesk { Ledger.boom.desk with queue := [late] }).run
      (show run? settings _ [.takeBatch] = some _ from rfl)
  obtain ⟨-, hall, -, hstart, hfinish, -⟩ := second.slots_conserved
  have hheld : _ = 1 := (Nat.zero_add _).symm.trans hall
  refine ⟨_, second, rfl, hheld, rfl, ?_, ?_⟩
  · rw [Bool.eq_false_iff, ne_eq, hstart 3 late rfl, hheld]
    decide
  · obtain ⟨next, hn, hf, -, ht⟩ := hfinish 1 _ rfl
    exact ⟨next, hn, hf, by rw [ht]; rfl⟩

end Floor

end LoanClosing
