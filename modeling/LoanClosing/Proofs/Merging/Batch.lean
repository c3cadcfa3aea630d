import LoanClosing.Proofs.Merging.Account
import LoanClosing.Proofs.Merging.Verdict

/-!
# What a batch leaves behind

A batch takes all jobs out of the queue and reports them in some order. What a job comes to is a
matter of the job alone, so what a batch leaves behind can be told from its jobs: they are announced
in the order of the reports, each tracker records those that are bound to it, and the handle taken
last of each is settled.
-/

namespace LoanClosing

namespace Job

variable (settings : MergeSettings) (job : Job)

/-- What a job comes to when it is merged. -/
def outcome : Except MergeError ByteArray :=
  merge settings.processor settings.renderer job.document job.model

/-- What a job comes to, as trackers and followers of the bulletin are told: the output, or the text
of the error. -/
def told : Except String ByteArray := (job.outcome settings).mapError MergeError.message

/-- What is announced about a job. -/
def announcement : Announcement := ⟨job.id, job.key, job.told settings⟩

/-- What a job gives its tracker to record. -/
def entry : Tracker.Entry := (job.key, job.told settings)

variable {settings job}

theorem told_of_ok {output : ByteArray} (h : job.outcome settings = .ok output) :
    job.told settings = .ok output := by
  rw [told, h]
  rfl

theorem told_of_error {error : MergeError} (h : job.outcome settings = .error error) :
    job.told settings = .error error.message := by
  rw [told, h]
  rfl

/-- A merge fails because the document is not rendered, never for want of a slot or because somebody
dropped the job. -/
theorem outcome_eq_error {error : MergeError} (h : job.outcome settings = .error error) :
    error ≠ .closed ∧ error ≠ .abandoned := by
  rw [outcome, merge] at h
  cases hr : settings.renderer (settings.processor.processDocument job.document job.model).1 with
  | ok output =>
    rw [hr] at h
    cases h
  | error failure =>
    rw [hr] at h
    obtain rfl := Except.error.inj h
    cases failure <;> exact ⟨nofun, nofun⟩

end Job

namespace Desk

variable {settings : MergeSettings} {desk : Desk} {jobs : List Job}

/-- All jobs that wait are merged, and reported in the order given. -/
def batch (settings : MergeSettings) (desk : Desk) (order : List Job) : Desk :=
  finishAll settings { desk with queue := [] } order

/-- The jobs that wait are reported first one first. -/
theorem processPending_eq (settings : MergeSettings) (desk : Desk) :
    desk.processPending settings = (desk.batch settings desk.queue, desk.queue.length) := rfl

@[simp] theorem queue_batch (settings : MergeSettings) (desk : Desk) (order : List Job) :
    (desk.batch settings order).queue = [] := queue_finishAll ..

/-- The job that is reported last. -/
theorem batch_append_singleton (settings : MergeSettings) (desk : Desk) (order : List Job)
    (job : Job) :
    desk.batch settings (order ++ [job]) = finish settings (desk.batch settings order) job :=
  List.foldl_append

/-- The last batch before everything stops finds no job. -/
theorem runStopped_eq (settings : MergeSettings) (desk : Desk) :
    desk.runStopped settings = (desk.batch settings desk.queue).batch settings [] := by
  rw [runStopped, processPending_eq, processPending_eq, queue_batch]

@[simp] theorem nextJob_finishAll (settings : MergeSettings) (desk : Desk) (jobs : List Job) :
    (finishAll settings desk jobs).nextJob = desk.nextJob := by
  induction jobs generalizing desk with
  | nil => rfl
  | cons job jobs ih =>
    rw [finishAll, List.foldl_cons, ← finishAll, ih, finish, nextJob_report]

/-! ### Announcements and trackers -/

/-- Jobs are announced in the order in which they are reported. -/
theorem announcements_finishAll (settings : MergeSettings) (desk : Desk) (jobs : List Job) :
    (finishAll settings desk jobs).bulletin.announcements =
      desk.bulletin.announcements ++ jobs.map (Job.announcement settings) := by
  induction jobs generalizing desk with
  | nil => exact (List.append_nil _).symm
  | cons job jobs ih =>
    rw [finishAll, List.foldl_cons, ← finishAll, ih, List.map_cons, List.append_cons]
    rw [finish, report, bulletin_settle]
    rfl

/-- A report is recorded at the tracker of its job. -/
theorem getElem?_trackers_finish (settings : MergeSettings) (desk : Desk) (job : Job)
    (place : Nat) :
    (finish settings desk job).trackers[place]? =
      desk.trackers[place]?.map (·.after (([job].filter (·.tracker == some place)).map
        (Job.entry settings))) := by
  cases hj : job.tracker with
  | none =>
    rw [finish, report, trackers_settle, hj]
    simp [hj, Tracker.after]
  | some own =>
    rw [finish, trackers_report _ hj, List.getElem?_modify]
    by_cases hp : own = place
    · subst hp
      simp [hj, Tracker.after, Job.entry, Job.told, Job.outcome]
    · simp [hj, hp, Tracker.after]

/-- Each tracker records the jobs that are bound to it, in the order in which they are reported. -/
theorem getElem?_trackers_finishAll (settings : MergeSettings) (desk : Desk) (jobs : List Job)
    (place : Nat) :
    (finishAll settings desk jobs).trackers[place]? =
      desk.trackers[place]?.map (·.after ((jobs.filter (·.tracker == some place)).map
        (Job.entry settings))) := by
  induction jobs generalizing desk with
  | nil => simp [finishAll, Tracker.after]
  | cons job jobs ih =>
    have hs : job :: jobs = [job] ++ jobs := rfl
    rw [finishAll, List.foldl_cons, ← finishAll, ih, getElem?_trackers_finish, Option.map_map, hs,
      List.filter_append, List.map_append]
    congr 1
    funext tracker
    exact (Tracker.after_append ..).symm

/-! ### Handles -/

/-- Settling a handle that is not settled. -/
theorem handles_settle {place : Nat} (h : desk.handles[place]? = some .pending)
    (result : Except MergeError ByteArray) :
    (desk.settle result (some place)).handles = desk.handles.set place (.settled result) := by
  simp only [settle, h]

/-- Settling a handle leaves all others alone. -/
theorem getElem?_handles_settle_of_ne (desk : Desk) (result : Except MergeError ByteArray)
    {handle : Option Nat} {place : Nat} (h : handle ≠ some place) :
    (desk.settle result handle).handles[place]? = desk.handles[place]? := by
  unfold settle
  split
  · rfl
  · next other =>
    split
    · exact List.getElem?_set_ne (fun he ↦ h (congrArg some he))
    · rfl

@[simp] theorem length_handles_settle (desk : Desk) (result : Except MergeError ByteArray)
    (handle : Option Nat) :
    (desk.settle result handle).handles.length = desk.handles.length := by
  unfold settle
  split
  · rfl
  · split
    · exact List.length_set
    · rfl

/-- Whether the handles of jobs are all different and none is settled. -/
def Waits (desk : Desk) (jobs : List Job) : Prop :=
  (jobs.filterMap Job.handle).Nodup ∧
    ∀ place ∈ jobs.filterMap Job.handle, desk.handles[place]? = some .pending

section Settling

variable {change : Desk → Job → Desk} {result : Job → Except MergeError ByteArray}

/-- What settles the handles of jobs, one after another, does it as long as none is settled twice,
and leaves all other handles alone. -/
theorem getElem?_handles_foldl
    (hc : ∀ desk job, (change desk job).handles = (desk.settle (result job) job.handle).handles)
    (hw : desk.Waits jobs) :
    (∀ job ∈ jobs, ∀ place, job.handle = some place →
      (jobs.foldl change desk).handles[place]? = some (.settled (result job))) ∧
    ∀ place, place ∉ jobs.filterMap Job.handle →
      (jobs.foldl change desk).handles[place]? = desk.handles[place]? := by
  induction jobs generalizing desk with
  | nil => exact ⟨nofun, fun _ _ ↦ rfl⟩
  | cons job jobs ih =>
    obtain ⟨hn, hp⟩ := hw
    -- The handle of the first job is none of the others', so the rest waits as before.
    have hkeep (place : Nat) (hm : job.handle ≠ some place) :
        (change desk job).handles[place]? = desk.handles[place]? := by
      rw [hc]
      exact desk.getElem?_handles_settle_of_ne (result job) hm
    have hfirst (place : Nat) (hj : job.handle = some place) :
        place ∉ jobs.filterMap Job.handle := by
      rw [List.filterMap_cons_some hj] at hn
      exact (List.nodup_cons.mp hn).1
    have hrest : (change desk job).Waits jobs := by
      constructor
      · exact hn.sublist ((List.sublist_cons_self job jobs).filterMap Job.handle)
      · intro place hm
        rw [hkeep place fun hj ↦ hfirst place hj hm]
        exact hp place (((List.sublist_cons_self job jobs).filterMap Job.handle).subset hm)
    obtain ⟨hs, ho⟩ := ih hrest
    rw [List.foldl_cons]
    constructor
    · intro other hm place hother
      obtain rfl | hm := List.mem_cons.mp hm
      · have hpend := hp place (List.mem_filterMap.mpr ⟨other, List.mem_cons_self, hother⟩)
        have hlt : place < desk.handles.length := (List.getElem?_eq_some_iff.mp hpend).1
        rw [ho place (hfirst place hother), hc, hother, handles_settle hpend,
          List.getElem?_set_self hlt]
      · exact hs other hm place hother
    · intro place hm
      have hne : job.handle ≠ some place := by
        intro hj
        exact hm (List.mem_filterMap.mpr ⟨job, List.mem_cons_self, hj⟩)
      have hn : place ∉ jobs.filterMap Job.handle := fun hin ↦
        hm (((List.sublist_cons_self job jobs).filterMap Job.handle).subset hin)
      rw [ho place hn, hkeep place hne]

theorem length_handles_foldl
    (hc : ∀ desk job, (change desk job).handles = (desk.settle (result job) job.handle).handles)
    (desk : Desk) (jobs : List Job) :
    (jobs.foldl change desk).handles.length = desk.handles.length := by
  induction jobs generalizing desk with
  | nil => rfl
  | cons job jobs ih => rw [List.foldl_cons, ih, hc, length_handles_settle]

end Settling

/-- A report settles the handle of its job. -/
theorem handles_finish (settings : MergeSettings) (desk : Desk) (job : Job) :
    (finish settings desk job).handles =
      (desk.settle (job.outcome settings) job.handle).handles := by
  unfold finish report settle
  cases job.handle with
  | none => rfl
  | some place =>
    dsimp only
    split <;> rfl

/-- What a batch leaves behind: no queue, an announcement of each job, and the trackers and handles
with what their jobs came to. -/
structure BatchLeft (settings : MergeSettings) (desk : Desk) (order : List Job) (after : Desk) :
    Prop where
  queue : after.queue = []
  nextJob : after.nextJob = desk.nextJob
  announcements : after.bulletin.announcements =
    desk.bulletin.announcements ++ order.map (Job.announcement settings)
  trackers : ∀ place : Nat, after.trackers[place]? = desk.trackers[place]?.map
    (·.after ((order.filter (·.tracker == some place)).map (Job.entry settings)))
  length_handles : after.handles.length = desk.handles.length
  settled : ∀ job ∈ order, ∀ place, job.handle = some place →
    after.handles[place]? = some (.settled (job.outcome settings))
  others : ∀ place, place ∉ order.filterMap Job.handle →
    after.handles[place]? = desk.handles[place]?

/-- A batch leaves behind what its jobs come to, in whichever order they are reported. -/
theorem batchLeft_batch (settings : MergeSettings) {order : List Job} (hw : desk.Waits jobs)
    (ho : order.Perm jobs) : BatchLeft settings desk order (desk.batch settings order) := by
  have hp : (order.filterMap Job.handle).Perm (jobs.filterMap Job.handle) := ho.filterMap _
  have hwait : Waits { desk with queue := [] } order :=
    ⟨hp.nodup_iff.mpr hw.1, fun place hm ↦ hw.2 place (hp.mem_iff.mp hm)⟩
  have hh := getElem?_handles_foldl (handles_finish settings) hwait
  exact
    { queue := queue_batch ..
      nextJob := nextJob_finishAll ..
      announcements := announcements_finishAll ..
      trackers := fun place ↦
        getElem?_trackers_finishAll settings { desk with queue := [] } order place
      length_handles := length_handles_foldl (handles_finish settings) ..
      settled := hh.1
      others := hh.2 }

/-- Dropped jobs are only taken out of the queue and their handles abandoned. -/
theorem exists_dropPending_eq (desk : Desk) :
    ∃ handles, desk.dropPending = ({ desk with queue := [], handles := handles }, desk.queue) := by
  have key : ∀ (jobs : List Job) (desk : Desk), ∃ handles,
      jobs.foldl (fun desk job ↦ desk.settle (.error .abandoned) job.handle) desk =
        { desk with handles := handles } := by
    intro jobs
    induction jobs with
    | nil => exact fun desk ↦ ⟨desk.handles, rfl⟩
    | cons job jobs ih =>
      intro desk
      obtain ⟨handles, hs⟩ := desk.exists_settle_eq (.error .abandoned) job.handle
      obtain ⟨more, hm⟩ := ih (desk.settle (.error .abandoned) job.handle)
      exact ⟨more, by rw [List.foldl_cons, hm, hs]⟩
  obtain ⟨handles, h⟩ := key desk.queue { desk with queue := [] }
  exact ⟨handles, by rw [dropPending, h]⟩

/-- Dropping all jobs that wait abandons their handles and leaves all others alone. -/
theorem getElem?_handles_dropPending (hw : desk.Waits desk.queue) :
    (∀ job ∈ desk.queue, ∀ place, job.handle = some place →
      desk.dropPending.1.handles[place]? = some (.settled (.error .abandoned))) ∧
    ∀ place, place ∉ desk.queue.filterMap Job.handle →
      desk.dropPending.1.handles[place]? = desk.handles[place]? := by
  have hq : Waits { desk with queue := [] } desk.queue := hw
  exact getElem?_handles_foldl (fun _ _ ↦ rfl) hq

@[simp] theorem length_handles_dropPending (desk : Desk) :
    desk.dropPending.1.handles.length = desk.handles.length :=
  length_handles_foldl (fun _ _ ↦ rfl) { desk with queue := [] } desk.queue

end Desk

end LoanClosing
