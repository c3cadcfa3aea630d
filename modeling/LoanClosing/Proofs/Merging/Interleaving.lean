import LoanClosing.Proofs.Merging.Batch

/-!
# A batch on the floor

The jobs of a batch are merged side by side and reported as they are done. Whatever the steps on the
floor, they leave behind what reporting the jobs in some order leaves behind, and there are steps
for every order.
-/

namespace LoanClosing

namespace Desk

/-- The queue has no part in a report. -/
theorem finish_withQueue (settings : MergeSettings) (desk : Desk) (queue : List Job) (job : Job) :
    finish settings { desk with queue := queue } job =
      { finish settings desk job with queue := queue } := by
  simp only [finish, report, settle]
  cases job.handle with
  | none => rfl
  | some place =>
    dsimp only
    split <;> rfl

end Desk

namespace Floor

variable {settings : MergeSettings} {start : Desk} {reported : List Job} {floor next : Floor}

/-- Several steps and then more. -/
theorem run?_append (settings : MergeSettings) (floor : Floor) (steps more : List FloorStep) :
    floor.run? settings (steps ++ more) =
      (floor.run? settings steps).bind (·.run? settings more) :=
  List.foldlM_append ..

/-- How a floor stands while the jobs that waited at a desk are merged and some of them are
reported. -/
structure Underway (settings : MergeSettings) (start : Desk) (reported : List Job)
    (floor : Floor) : Prop where
  /-- The desk is as the reports left it, apart from the queue. -/
  desk : floor.desk = { start.batch settings reported with queue := floor.desk.queue }
  /-- No job gets lost. -/
  conserved : (reported ++ floor.unreported).Perm start.queue
  /-- A merged task holds what its job comes to. -/
  merged : ∀ task ∈ floor.tasks, ∀ result, task.progress = .merged result →
    result = task.job.outcome settings

/-- A step keeps what merged tasks hold. -/
theorem Underway.merged_step (h : floor.Underway settings start reported) {step : FloorStep}
    (hs : floor.step? settings step = some next) :
    ∀ task ∈ next.tasks, ∀ result, task.progress = .merged result →
      result = task.job.outcome settings := by
  intro task hm result hr
  cases step with
  | takeBatch =>
    obtain rfl : floor.takeBatch = next := by simpa [step?] using hs
    obtain hm | hm := List.mem_append.mp hm
    · exact h.merged task hm result hr
    · obtain ⟨job, -, rfl⟩ := List.mem_map.mp hm
      cases hr
  | start place =>
    simp only [step?, start?] at hs
    split at hs
    · obtain rfl := Option.some.inj hs
      obtain hm | rfl := List.mem_or_eq_of_mem_set hm
      · exact h.merged task hm result hr
      · cases hr
    · cases hs
  | finish place =>
    simp only [step?, finish?] at hs
    split at hs
    · obtain rfl := Option.some.inj hs
      obtain hm | rfl := List.mem_or_eq_of_mem_set hm
      · exact h.merged task hm result hr
      · exact (MergeProgress.merged.inj hr).symm
    · cases hs
  | report place =>
    simp only [step?, report?] at hs
    split at hs
    · obtain rfl := Option.some.inj hs
      exact h.merged task (List.mem_of_mem_eraseIdx hm) result hr
    · cases hs

/-- A step reports one more job or none. -/
theorem Underway.step (h : floor.Underway settings start reported) {step : FloorStep}
    (hs : floor.step? settings step = some next) :
    ∃ more, next.Underway settings start (reported ++ more) := by
  obtain ⟨queue, hd, hp⟩ | ⟨place, job, result, -, ht, hd, hp⟩ := step?_cases hs
  · refine ⟨[], ?_, ?_, h.merged_step hs⟩
    · rw [List.append_nil, hd, h.desk]
    · rw [List.append_nil]
      exact (hp.append_left reported).trans h.conserved
  · have hr : result = job.outcome settings := h.merged _ (List.mem_of_getElem? ht) result rfl
    refine ⟨[job], ?_, ?_, h.merged_step hs⟩
    · rw [hd, Desk.queue_report, Desk.batch_append_singleton, hr, ← Desk.finish_withQueue, ← h.desk]
      rfl
    · rw [List.append_assoc, List.singleton_append]
      exact (hp.symm.append_left reported).trans h.conserved

/-- Steps, one after another, report some of the jobs. -/
theorem Underway.run (h : floor.Underway settings start reported) {steps : List FloorStep}
    (hs : floor.run? settings steps = some next) :
    ∃ more, next.Underway settings start (reported ++ more) := by
  induction steps generalizing floor reported with
  | nil =>
    obtain rfl : floor = next := by simpa [run?] using hs
    exact ⟨[], by rwa [List.append_nil]⟩
  | cons step steps ih =>
    rw [run?, List.foldlM_cons, Option.bind_eq_bind, Option.bind_eq_some_iff] at hs
    obtain ⟨between, hb, hs⟩ := hs
    obtain ⟨one, ho⟩ := h.step hb
    obtain ⟨more, hm⟩ := ih ho hs
    exact ⟨one ++ more, by rwa [← List.append_assoc]⟩

/-- With a free slot, a task that waits can be merged and reported before all others. -/
theorem exists_run_of_waiting {job : Job} {place free : Nat}
    (ht : floor.tasks[place]? = some ⟨job, .waiting⟩) (hf : floor.free = free + 1) :
    floor.run? settings [.start place, .finish place, .report place] =
      some { floor with
        desk := Desk.finish settings floor.desk job, tasks := floor.tasks.eraseIdx place } := by
  obtain ⟨hl, -⟩ := List.getElem?_eq_some_iff.mp ht
  simp only [run?, List.foldlM_cons, List.foldlM_nil, step?, start?, finish?, report?, ht, hf,
    Option.bind_eq_bind, Option.bind_some, List.getElem?_set_self hl, List.set_set,
    Option.pure_def, Option.some.injEq, Floor.mk.injEq, true_and]
  exact ⟨rfl, List.eraseIdx_set_eq⟩

/-- With a free slot, tasks that wait can be merged and reported in any order. -/
theorem exists_run_of_perm (settings : MergeSettings) (floor : Floor) {order : List Job}
    {free : Nat} (hf : floor.free = free + 1)
    (hw : ∀ task ∈ floor.tasks, task.progress = .waiting)
    (hp : order.Perm (floor.tasks.map MergeTask.job)) :
    ∃ steps, floor.run? settings steps =
      some { floor with desk := Desk.finishAll settings floor.desk order, tasks := [] } := by
  induction order generalizing floor with
  | nil =>
    have ht : floor.tasks = [] := List.map_eq_nil_iff.mp hp.nil_eq.symm
    refine ⟨[], ?_⟩
    obtain ⟨desk, slots, tasks⟩ := floor
    obtain rfl : tasks = [] := ht
    rfl
  | cons job order ih =>
    obtain ⟨⟨own, progress⟩, hm, hj⟩ := List.mem_map.mp (hp.mem_iff.mp List.mem_cons_self)
    obtain rfl : own = job := hj
    obtain rfl : progress = .waiting := hw _ hm
    obtain ⟨place, ht⟩ := List.getElem?_of_mem hm
    obtain ⟨hl, he⟩ := List.getElem?_eq_some_iff.mp ht
    have hrest : (order).Perm ((floor.tasks.eraseIdx place).map MergeTask.job) := by
      have hc := (List.getElem_cons_eraseIdx_perm hl).symm.map MergeTask.job
      rw [List.map_cons, he] at hc
      exact List.Perm.cons_inv (hp.trans hc)
    obtain ⟨steps, hs⟩ := ih { floor with
        desk := Desk.finish settings floor.desk own, tasks := floor.tasks.eraseIdx place } hf
      (fun task hin ↦ hw task (List.mem_of_mem_eraseIdx hin)) hrest
    refine ⟨[.start place, .finish place, .report place] ++ steps, ?_⟩
    rw [run?_append, exists_run_of_waiting ht hf, Option.bind_some, hs]
    rfl

/-- Steps on a floor where nobody works take all jobs that wait at a desk, merge them with so many
slots, and report all of them. -/
def Finishes (settings : MergeSettings) (maxConcurrency : Nat) (start finish : Desk) : Prop :=
  ∃ steps floor, (opened maxConcurrency start).run? settings steps = some floor ∧
    floor.unreported = [] ∧ floor.desk = finish

/-- What steps on the floor can leave behind is what reporting in some order leaves behind, however
many slots there are. -/
theorem finishes_iff {maxConcurrency : Nat} {finish : Desk} :
    Finishes settings maxConcurrency start finish ↔
      ∃ order : List Job, order.Perm start.queue ∧ finish = start.batch settings order := by
  constructor
  · rintro ⟨steps, floor, hs, hu, rfl⟩
    have hbegin : (opened maxConcurrency start).Underway settings start [] :=
      ⟨rfl, by simp [unreported, opened], nofun⟩
    obtain ⟨order, ho⟩ := hbegin.run hs
    rw [List.nil_append] at ho
    have hq : floor.desk.queue = [] := (List.append_eq_nil_iff.mp hu).1
    refine ⟨order, ?_, ?_⟩
    · have hc := ho.conserved
      rwa [hu, List.append_nil] at hc
    · rw [ho.desk, hq, ← start.queue_batch settings order]
  · rintro ⟨order, ho, rfl⟩
    have hf : (slotCount maxConcurrency - 1) + 1 = slotCount maxConcurrency :=
      Nat.sub_add_cancel (Nat.le_max_left 1 maxConcurrency)
    have hjobs : (start.queue.map fun job ↦ (⟨job, .waiting⟩ : MergeTask)).map MergeTask.job =
        start.queue := by rw [List.map_map]; exact List.map_id _
    have hp : order.Perm ((opened maxConcurrency start).takeBatch.tasks.map MergeTask.job) := by
      rwa [takeBatch, opened, List.nil_append, hjobs]
    obtain ⟨steps, hs⟩ := exists_run_of_perm settings (opened maxConcurrency start).takeBatch
      hf.symm (by simp [takeBatch, opened]) hp
    refine ⟨.takeBatch :: steps, _, hs, ?_, rfl⟩
    simp [unreported, takeBatch, opened]

end Floor

end LoanClosing
