import LoanClosing.Merging.Desk
import LoanClosing.Merging.Floor
import LoanClosing.Proofs.Table

/-!
# Accounts of trackers

A tracker is opened for documents, with a job for each, and every report of one of its jobs is
entered once. The account says how the tracker then stands: while it waits, it waits for exactly the
jobs that are not reported, and it holds the outputs of all others; once complete, it holds an
output for each document. The account needs the documents to be different, since two outputs under
one key would be counted twice and kept once.
-/

namespace LoanClosing

namespace Tracker

/-- How a tracker stands that was opened for documents and still waits for some jobs. -/
structure Account (ids : List String) (own : List Job) (tracker : Tracker) : Prop where
  /-- No document is there twice. -/
  nodup : ids.Nodup
  /-- A tracker without an outcome waits for its jobs and holds the outputs of the others. -/
  pending : tracker.outcome = none → tracker.remaining = own.length ∧ 0 < tracker.remaining ∧
    (Table.keys tracker.outputs ++ own.map Job.key).Perm ids
  /-- A complete tracker holds an output for each document. -/
  complete : ∀ outputs, tracker.outcome = some (.complete outputs) →
    (Table.keys outputs).Perm ids

namespace Account

variable {ids : List String} {own others : List Job} {tracker : Tracker} {job : Job}

/-- A tracker opened for jobs with different keys stands as it should. -/
theorem opened (hn : ids.Nodup) (hk : own.map Job.key = ids) :
    Account ids own (ofExpected own.length) where
  nodup := hn
  pending := by
    intro h
    have hl : own.length ≠ 0 := by
      intro hz
      simp [ofExpected, hz] at h
    refine ⟨rfl, Nat.pos_of_ne_zero hl, ?_⟩
    rw [hk]
    exact .refl ids
  complete := by
    intro outputs h
    by_cases hz : own.length = 0
    · have ho : own = [] := List.length_eq_zero_iff.mp hz
      have hi : ids = [] := by rw [← hk, ho, List.map_nil]
      obtain rfl : [] = outputs := by simpa [ofExpected, hz] using h
      rw [hi]
      exact .refl _
    · simp [ofExpected, hz] at h

/-- The order of the jobs does not matter. -/
theorem perm (h : Account ids own tracker) (hp : own.Perm others) :
    Account ids others tracker where
  nodup := h.nodup
  pending := by
    intro ho
    obtain ⟨hr, hpos, hk⟩ := h.pending ho
    exact ⟨hr.trans hp.length_eq, hpos, ((hp.map Job.key).symm.append_left _).trans hk⟩
  complete := h.complete

/-- Without a job to wait for, a tracker has an outcome. -/
theorem outcome_ne_none (h : Account ids [] tracker) : tracker.outcome ≠ none := by
  intro ho
  obtain ⟨hr, hpos, -⟩ := h.pending ho
  rw [hr] at hpos
  exact Nat.lt_irrefl 0 hpos

/-- A success of one of the jobs takes it off the account. -/
theorem recordSuccess (h : Account ids (job :: own) tracker) (output : ByteArray) :
    Account ids own (tracker.recordSuccess job.key output).1 := by
  cases ho : tracker.outcome with
  | some outcome =>
    rw [Tracker.recordSuccess, ho]
    exact ⟨h.nodup, by simp [ho], h.complete⟩
  | none =>
    obtain ⟨hr, -, hk⟩ := h.pending ho
    have hm : (Table.keys tracker.outputs ++ job.key :: own.map Job.key).Nodup :=
      hk.nodup_iff.mpr h.nodup
    have hj : job.key ∉ Table.keys tracker.outputs := by
      intro hin
      exact (List.nodup_append.mp hm).2.2 _ hin _ List.mem_cons_self rfl
    have hp : (Table.keys (Table.putSorted job.key output tracker.outputs) ++
        own.map Job.key).Perm ids :=
      ((Table.keys_putSorted_perm hj output).append_right _).trans
        (List.perm_middle.symm.trans hk)
    rw [List.length_cons] at hr
    simp only [Tracker.recordSuccess, ho, hr, Nat.add_sub_cancel]
    split
    · next hz =>
      refine ⟨h.nodup, by simp, ?_⟩
      intro outputs he
      obtain rfl : Table.putSorted job.key output tracker.outputs = outputs := by simpa using he
      have hown : own = [] := List.length_eq_zero_iff.mp hz
      simpa [hown] using hp
    · next hz =>
      refine ⟨h.nodup, fun _ ↦ ⟨rfl, Nat.pos_of_ne_zero hz, hp⟩, ?_⟩
      intro outputs he
      simp at he

/-- A failure of one of the jobs settles the account. -/
theorem recordFailure (h : Account ids (job :: own) tracker) (reason : String) :
    Account ids own (tracker.recordFailure job.key reason).1 := by
  cases ho : tracker.outcome with
  | some outcome =>
    rw [Tracker.recordFailure, ho]
    exact ⟨h.nodup, by simp [ho], h.complete⟩
  | none =>
    rw [Tracker.recordFailure, ho]
    exact ⟨h.nodup, by simp, by simp⟩

/-- A report of one of the jobs takes it off the account. -/
theorem record (h : Account ids (job :: own) tracker) (result : Except String ByteArray) :
    Account ids own (tracker.record job.key result).1 := by
  cases result with
  | ok output => exact h.recordSuccess output
  | error reason => exact h.recordFailure reason

end Account

end Tracker

/-! ### What a report does at the desk -/

namespace Desk

/-- Settling changes nothing but handles. -/
theorem exists_settle_eq (desk : Desk) (result : Except MergeError ByteArray)
    (handle : Option Nat) :
    ∃ handles, desk.settle result handle = { desk with handles := handles } := by
  unfold settle
  split
  · exact ⟨desk.handles, rfl⟩
  · split
    · exact ⟨_, rfl⟩
    · exact ⟨desk.handles, rfl⟩

@[simp] theorem trackers_settle (desk : Desk) (result : Except MergeError ByteArray)
    (handle : Option Nat) : (desk.settle result handle).trackers = desk.trackers := by
  obtain ⟨handles, h⟩ := desk.exists_settle_eq result handle
  rw [h]

@[simp] theorem queue_settle (desk : Desk) (result : Except MergeError ByteArray)
    (handle : Option Nat) : (desk.settle result handle).queue = desk.queue := by
  obtain ⟨handles, h⟩ := desk.exists_settle_eq result handle
  rw [h]

@[simp] theorem nextJob_settle (desk : Desk) (result : Except MergeError ByteArray)
    (handle : Option Nat) : (desk.settle result handle).nextJob = desk.nextJob := by
  obtain ⟨handles, h⟩ := desk.exists_settle_eq result handle
  rw [h]

@[simp] theorem bulletin_settle (desk : Desk) (result : Except MergeError ByteArray)
    (handle : Option Nat) : (desk.settle result handle).bulletin = desk.bulletin := by
  obtain ⟨handles, h⟩ := desk.exists_settle_eq result handle
  rw [h]

/-- The jobs whose results are announced, oldest first. -/
def announced (desk : Desk) : List JobId := desk.bulletin.announcements.map Announcement.job

@[simp] theorem queue_report (desk : Desk) (job : Job) (result : Except MergeError ByteArray) :
    (desk.report job result).queue = desk.queue := by
  rw [report, queue_settle]

@[simp] theorem queue_finishAll (settings : MergeSettings) (desk : Desk) (jobs : List Job) :
    (finishAll settings desk jobs).queue = desk.queue := by
  induction jobs generalizing desk with
  | nil => rfl
  | cons job jobs ih =>
    rw [finishAll, List.foldl_cons, ← finishAll, ih, finish, queue_report]

@[simp] theorem nextJob_report (desk : Desk) (job : Job) (result : Except MergeError ByteArray) :
    (desk.report job result).nextJob = desk.nextJob := by
  rw [report, nextJob_settle]

/-- A report announces its job. -/
@[simp] theorem announced_report (desk : Desk) (job : Job) (result : Except MergeError ByteArray) :
    (desk.report job result).announced = desk.announced ++ [job.id] := by
  rw [announced, report, bulletin_settle, Bulletin.announce, List.map_append]
  rfl

/-- A report is entered at the tracker of the job and nowhere else. -/
theorem trackers_report (desk : Desk) {job : Job} {place : Nat} (h : job.tracker = some place)
    (result : Except MergeError ByteArray) :
    (desk.report job result).trackers = desk.trackers.modify place fun tracker ↦
      (tracker.record job.key (result.mapError MergeError.message)).1 := by
  rw [report, trackers_settle, h]

end Desk

/-! ### What a step does on the floor -/

namespace Floor

/-- The jobs that wait or were taken, and whose results are not reported. -/
def unreported (floor : Floor) : List Job := floor.desk.queue ++ floor.tasks.map MergeTask.job

/-- Progress of a task leaves its job in its place. -/
theorem map_job_set {tasks : List MergeTask} {place : Nat} {task : MergeTask}
    (h : tasks[place]? = some task) (progress : MergeProgress) :
    (tasks.set place ⟨task.job, progress⟩).map MergeTask.job = tasks.map MergeTask.job := by
  obtain ⟨hl, rfl⟩ := List.getElem?_eq_some_iff.mp h
  have hm : place < (tasks.map MergeTask.job).length := by rwa [List.length_map]
  have he : (tasks.map MergeTask.job)[place] = tasks[place].job := List.getElem_map ..
  rw [List.map_set, ← he, List.set_getElem_self]

/-- A step changes only the queue of the desk and drops no job, or it reports one job and drops only
that. -/
theorem step?_cases {settings : MergeSettings} {floor next : Floor} {step : FloorStep}
    (h : floor.step? settings step = some next) :
    (∃ queue, next.desk = { floor.desk with queue := queue } ∧
      next.unreported.Perm floor.unreported) ∨
    ∃ place job result, step = .report place ∧
      floor.tasks[place]? = some ⟨job, .merged result⟩ ∧
      next.desk = floor.desk.report job result ∧
      floor.unreported.Perm (job :: next.unreported) := by
  cases step with
  | takeBatch =>
    left
    obtain rfl : floor.takeBatch = next := by simpa [step?] using h
    refine ⟨[], rfl, ?_⟩
    simp only [unreported, takeBatch, List.nil_append, List.map_append, List.map_map]
    have hq : floor.desk.queue.map (MergeTask.job ∘ fun job ↦ ⟨job, .waiting⟩) =
        floor.desk.queue := List.map_id _
    rw [hq]
    exact List.perm_append_comm
  | start place =>
    left
    simp only [step?, start?] at h
    split at h
    · next job free ht _ =>
      obtain rfl := Option.some.inj h
      refine ⟨floor.desk.queue, rfl, ?_⟩
      simp only [unreported, map_job_set ht, List.Perm.refl]
    · cases h
  | finish place =>
    left
    simp only [step?, finish?] at h
    split at h
    · next job ht =>
      obtain rfl := Option.some.inj h
      refine ⟨floor.desk.queue, rfl, ?_⟩
      simp only [unreported, map_job_set ht, List.Perm.refl]
    · cases h
  | report place =>
    right
    simp only [step?, report?] at h
    split at h
    · next job result ht =>
      obtain rfl := Option.some.inj h
      refine ⟨place, job, result, rfl, ht, rfl, ?_⟩
      obtain ⟨hl, he⟩ := List.getElem?_eq_some_iff.mp ht
      have hp : (floor.tasks.map MergeTask.job).Perm
          (job :: (floor.tasks.eraseIdx place).map MergeTask.job) := by
        have hm := (List.getElem_cons_eraseIdx_perm hl).symm.map MergeTask.job
        rwa [List.map_cons, he] at hm
      simp only [unreported, Desk.queue_report]
      exact (hp.append_left _).trans List.perm_middle
    · cases h

end Floor

end LoanClosing
