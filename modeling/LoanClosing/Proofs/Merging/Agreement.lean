import LoanClosing.Proofs.Merging.Interleaving
import LoanClosing.Proofs.Merging.Ledger

/-!
# A batch, whichever job is done first

All orders in which the jobs of a batch are reported agree on what matters. What each job comes to
is its own, and its handle and the bulletin tell it. A tracker opened for the jobs that are bound to
it is complete with all their outputs if all of them succeed; if not, it has failed with one of
those that fail.
-/

namespace LoanClosing

/-! ### A tracker that waits for the jobs bound to it -/

namespace Tracker

/-- A tracker that waits for as many merges as are recorded is complete after successes, and else
has failed with one of the failures. -/
theorem after_of_length (entries : List Entry) :
    (∃ recorded, entries = successes recorded ∧
      (ofExpected entries.length).after entries =
        resolved entries.length 0 (.complete (Table.sorted recorded))) ∨
    ∃ failure remaining, failureEntry failure ∈ entries ∧
      (ofExpected entries.length).after entries =
        resolved entries.length remaining (.failed failure) := by
  obtain ⟨recorded, he, hl⟩ | ⟨recorded, failure, later, he, hl⟩ | ⟨recorded, later, he, hl⟩ :=
    entries_cases entries.length entries
  · have hlen := congrArg List.length he
    rw [successes, List.length_map] at hlen
    omega
  · right
    refine ⟨failure, entries.length - recorded.length, by rw [he]; simp, ?_⟩
    have ha := (after_failure hl failure).1
    have ho := (outcome_resolved entries.length (entries.length - recorded.length)
      (.failed failure))
    rw [← ha] at ho
    have hs : successes recorded ++ failureEntry failure :: later =
        successes recorded ++ [failureEntry failure] ++ later := by simp
    have hall := (after_append_of_outcome ho later).1
    rw [← hs, ← he] at hall
    exact hall.trans ha
  · left
    have hlater : later = [] := by
      have hlen := congrArg List.length he
      rw [successes, List.length_append, List.length_map] at hlen
      exact List.length_eq_zero_iff.mp (by omega)
    rw [hlater, List.append_nil] at he
    refine ⟨recorded, he, ?_⟩
    rw [← hl, he]
    exact (after_successes recorded).1

end Tracker

namespace Job

/-- The outputs of the jobs that succeed, under their keys. -/
def outputs (settings : MergeSettings) (jobs : List Job) : Outputs :=
  jobs.filterMap fun job ↦ (job.outcome settings).toOption.map (job.key, ·)

variable {settings : MergeSettings} {jobs : List Job}

/-- When all jobs succeed, their outputs are all that is recorded. -/
theorem map_entry_of_ok (h : ∀ job ∈ jobs, ∃ output, job.outcome settings = .ok output) :
    jobs.map (entry settings) = Tracker.successes (outputs settings jobs) := by
  induction jobs with
  | nil => rfl
  | cons job jobs ih =>
    obtain ⟨⟨output, ho⟩, hs⟩ := List.forall_mem_cons.mp h
    rw [List.map_cons, ih hs, entry, told_of_ok ho]
    simp [outputs, ho, Except.toOption, Tracker.successes]

/-- When all jobs succeed, there is an output under the key of each. -/
theorem keys_outputs_of_ok (h : ∀ job ∈ jobs, ∃ output, job.outcome settings = .ok output) :
    Table.keys (outputs settings jobs) = jobs.map key := by
  induction jobs with
  | nil => rfl
  | cons job jobs ih =>
    obtain ⟨⟨output, ho⟩, hs⟩ := List.forall_mem_cons.mp h
    rw [List.map_cons, ← ih hs]
    simp [outputs, ho, Except.toOption, Table.keys]

/-- A failure that is recorded is that of a job. -/
theorem exists_of_failureEntry {failure : MergeFailure}
    (h : Tracker.failureEntry failure ∈ jobs.map (entry settings)) :
    ∃ job ∈ jobs, ∃ error, job.outcome settings = .error error ∧
      failure = ⟨job.key, error.message⟩ := by
  obtain ⟨job, hj, he⟩ := List.mem_map.mp h
  obtain ⟨key, reason⟩ := failure
  obtain ⟨hk, ht⟩ := Prod.mk.inj he
  cases ho : job.outcome settings with
  | ok output =>
    rw [told_of_ok ho] at ht
    cases ht
  | error error =>
    rw [told_of_error ho] at ht
    exact ⟨job, hj, error, ho, by rw [hk, Except.error.inj ht]⟩

/-- A tracker that waits for jobs with different keys, all of which succeed, is complete with their
outputs, in whichever order they are reported. -/
theorem after_of_ok {order : List Job} (hn : (jobs.map key).Nodup) (hp : order.Perm jobs)
    (h : ∀ job ∈ jobs, ∃ output, job.outcome settings = .ok output) :
    (Tracker.ofExpected jobs.length).after (order.map (entry settings)) =
      .resolved jobs.length 0 (.complete (Table.sorted (outputs settings jobs))) := by
  have ho : ∀ job ∈ order, ∃ output, job.outcome settings = .ok output :=
    fun job hj ↦ h job (hp.mem_iff.mp hj)
  have hk : (Table.keys (outputs settings jobs)).Nodup := keys_outputs_of_ok h ▸ hn
  have hl : (outputs settings order).length = jobs.length := by
    rw [← hp.length_eq, ← List.length_map key, ← keys_outputs_of_ok ho, Table.keys,
      List.length_map]
  rw [map_entry_of_ok ho, Table.sorted_eq_of_perm hk (hp.symm.filterMap _), ← hl]
  exact (Tracker.after_successes _).1

/-- A tracker that waits for jobs of which one fails has failed with one that fails, in whichever
order they are reported. -/
theorem after_of_error {order : List Job} (hp : order.Perm jobs)
    (h : ∃ job ∈ jobs, ∃ error, job.outcome settings = .error error) :
    ∃ job ∈ jobs, ∃ error remaining, job.outcome settings = .error error ∧
      (Tracker.ofExpected jobs.length).after (order.map (entry settings)) =
        .resolved jobs.length remaining (.failed ⟨job.key, error.message⟩) := by
  have hl : (order.map (entry settings)).length = jobs.length := by
    rw [List.length_map, hp.length_eq]
  obtain ⟨recorded, he, -⟩ | ⟨failure, remaining, hf, ha⟩ :=
    Tracker.after_of_length (order.map (entry settings))
  · obtain ⟨job, hj, error, ho⟩ := h
    have hm : (job.key, job.told settings) ∈ Tracker.successes recorded := by
      rw [← he]
      exact List.mem_map_of_mem (hp.mem_iff.mpr hj)
    obtain ⟨⟨key, output⟩, -, hs⟩ := List.mem_map.mp hm
    rw [told_of_error ho] at hs
    cases (Prod.mk.inj hs).2
  · obtain ⟨job, hj, error, ho, rfl⟩ := exists_of_failureEntry hf
    rw [hl] at ha
    exact ⟨job, hp.mem_iff.mp hj, error, remaining, ho, ha⟩

end Job

/-! ### What all orders agree on -/

/-- What a tracker shows that is complete with outputs. -/
def Tracker.HasOutputs (tracker : Tracker) (outputs : Outputs) : Prop :=
  tracker.status = .complete (outputs.map fun (key, output) ↦ (key, output.size)) ∧
    tracker.wait? = some (.ok outputs)

/-- What a tracker shows that has failed with one of the jobs that fail. -/
def Tracker.HasFailed (settings : MergeSettings) (jobs : List Job) (tracker : Tracker) : Prop :=
  ∃ job ∈ jobs, ∃ error, job.outcome settings = .error error ∧
    tracker.status = .failed ⟨job.key, error.message⟩ ∧
    tracker.wait? = some (.error ⟨job.key, error.message⟩)

namespace Desk

/-- What two desks have in common that are left behind when the jobs that wait at a desk are
reported in two orders. -/
structure Agree (settings : MergeSettings) (start first second : Desk) : Prop where
  /-- The last handle of each job tells what the job comes to by itself. -/
  outcomes : ∀ job ∈ start.queue, ∀ place, job.handle = some place →
    first.handles[place]? = some (.settled (job.outcome settings)) ∧
      second.handles[place]? = some (.settled (job.outcome settings))
  /-- All handles show the same. -/
  handles : first.handles = second.handles
  /-- The same is announced, and that is what each job comes to by itself. -/
  announced : ∃ news others,
    first.bulletin.announcements = start.bulletin.announcements ++ news ∧
    second.bulletin.announcements = start.bulletin.announcements ++ others ∧
    news.Perm others ∧
    news.Perm (start.queue.map fun job ↦
      ⟨job.id, job.key, (job.outcome settings).mapError MergeError.message⟩)
  /-- A new tracker that waits for the jobs bound to it, whose keys are different, is complete with
  the same outputs when all of them succeed; when one fails, it has failed with one that fails. -/
  trackers : ∀ (place : Nat) (jobs : List Job),
    jobs = start.queue.filter (·.tracker == some place) →
    start.trackers[place]? = some (.ofExpected jobs.length) → (jobs.map Job.key).Nodup →
    ∃ tracker other, first.trackers[place]? = some tracker ∧
      second.trackers[place]? = some other ∧
      ((∀ job ∈ jobs, ∃ output, job.outcome settings = .ok output) →
        tracker = other ∧ ∃ outputs, outputs.Perm (Job.outputs settings jobs) ∧
          (Table.keys outputs).Pairwise (· < ·) ∧ tracker.HasOutputs outputs) ∧
      ((∃ job ∈ jobs, ∃ error, job.outcome settings = .error error) →
        tracker.HasFailed settings jobs ∧ other.HasFailed settings jobs)

variable {settings : MergeSettings} {start : Desk} {order other : List Job}

/-- After a batch, a new tracker that waits for the jobs bound to it is as their outcomes say. -/
theorem getElem?_trackers_batch (settings : MergeSettings) (ho : order.Perm start.queue)
    {place : Nat} {jobs : List Job}
    (hj : jobs = start.queue.filter (·.tracker == some place))
    (ht : start.trackers[place]? = some (.ofExpected jobs.length))
    (hn : (jobs.map Job.key).Nodup) :
    ∃ tracker, (start.batch settings order).trackers[place]? = some tracker ∧
      ((∀ job ∈ jobs, ∃ output, job.outcome settings = .ok output) →
        tracker = .resolved jobs.length 0
          (.complete (Table.sorted (Job.outputs settings jobs)))) ∧
      ((∃ job ∈ jobs, ∃ error, job.outcome settings = .error error) →
        tracker.HasFailed settings jobs) := by
  have hp : (order.filter (·.tracker == some place)).Perm jobs := hj ▸ ho.filter _
  refine ⟨_, ?_, fun hok ↦ Job.after_of_ok hn hp hok, fun herror ↦ ?_⟩
  · rw [batch, getElem?_trackers_finishAll]
    change start.trackers[place]?.map _ = _
    rw [ht]
    rfl
  · obtain ⟨job, hm, error, remaining, he, ha⟩ := Job.after_of_error hp herror
    exact ⟨job, hm, error, he, by rw [ha]; rfl, by rw [ha]; rfl⟩

/-- Whatever the two orders, the desks agree. -/
theorem agree_batch (settings : MergeSettings) (hw : start.Waits start.queue)
    (ho : order.Perm start.queue) (hother : other.Perm start.queue) :
    Agree settings start (start.batch settings order) (start.batch settings other) := by
  have hl := batchLeft_batch settings hw ho
  have hr := batchLeft_batch settings hw hother
  have houtcomes : ∀ job ∈ start.queue, ∀ place, job.handle = some place →
      (start.batch settings order).handles[place]? = some (.settled (job.outcome settings)) ∧
        (start.batch settings other).handles[place]? = some (.settled (job.outcome settings)) :=
    fun job hj place hp ↦ ⟨hl.settled job (ho.mem_iff.mpr hj) place hp,
      hr.settled job (hother.mem_iff.mpr hj) place hp⟩
  refine ⟨houtcomes, ?_, ⟨_, _, hl.announcements, hr.announcements, ?_, ho.map _⟩, ?_⟩
  · apply List.ext_getElem?
    intro place
    by_cases hp : place ∈ start.queue.filterMap Job.handle
    · obtain ⟨job, hj, hj'⟩ := List.mem_filterMap.mp hp
      obtain ⟨hfirst, hsecond⟩ := houtcomes job hj place hj'
      rw [hfirst, hsecond]
    · rw [hl.others place fun hm ↦ hp ((ho.filterMap _).mem_iff.mp hm),
        hr.others place fun hm ↦ hp ((hother.filterMap _).mem_iff.mp hm)]
  · exact (ho.trans hother.symm).map _
  · intro place jobs hj ht hn
    obtain ⟨tracker, hfirst, hok, herror⟩ :=
      getElem?_trackers_batch settings ho hj ht hn
    obtain ⟨last, hsecond, hok', herror'⟩ := getElem?_trackers_batch settings hother hj ht hn
    refine ⟨tracker, last, hfirst, hsecond, fun h ↦ ?_, fun h ↦ ⟨herror h, herror' h⟩⟩
    have hk : (Table.keys (Job.outputs settings jobs)).Nodup := Job.keys_outputs_of_ok h ▸ hn
    rw [hok h, hok' h]
    exact ⟨rfl, _, Table.sorted_perm hk, Table.pairwise_keys_sorted _, rfl, rfl⟩

end Desk

/-- A batch comes to the same whichever of its jobs is done first. Whatever happens on the floor
once the jobs that wait at a desk are taken, and however many slots there are, the desk is in the
end as reporting the jobs in some order leaves it, and any order can come about. All orders agree on
what each job comes to, on what is announced, and on the trackers opened for jobs of the batch. -/
theorem Ledger.Reached.batch_agrees {settings : MergeSettings} {ledger : Ledger}
    (h : Reached settings ledger) :
    (∀ maxConcurrency finish, Floor.Finishes settings maxConcurrency ledger.desk finish ↔
      ∃ order : List Job, order.Perm ledger.desk.queue ∧
        finish = ledger.desk.batch settings order) ∧
    ∀ order other : List Job, order.Perm ledger.desk.queue → other.Perm ledger.desk.queue →
      Desk.Agree settings ledger.desk (ledger.desk.batch settings order)
        (ledger.desk.batch settings other) :=
  ⟨fun _ _ ↦ Floor.finishes_iff,
    fun _ _ ho hother ↦ Desk.agree_batch settings h.kept.waits ho hother⟩

/-- A renderer that breaks down over a document of one name. -/
def Renderer.fragile : Renderer := fun document ↦
  if document.name = "boom" then .error (.brokeDown (some "renderer exploded"))
  else Renderer.plainText document

/-- A desk with a tracker for two jobs, one of which breaks down, and a tracker for a third one. -/
def Ledger.boom : Ledger :=
  (((((opened 4).addTracker 2).addTracker 1).enqueue "fine" ⟨"fine", []⟩ .null (some 0) 1).enqueue
    "boom" ⟨"boom", []⟩ .null (some 0) 1).enqueue "other" ⟨"other", []⟩ .null (some 1) 1

/-- The breakdown fails its own tracker and no other job, also when it is reported last. -/
theorem Ledger.batch_agrees_boom :
    let settings : MergeSettings := ⟨⟨"Loan", 2⟩, .fragile⟩
    let start := boom.desk
    let finish := start.batch settings start.queue.reverse
    Reached settings boom ∧ Desk.Agree settings start (start.batch settings start.queue) finish ∧
      finish.trackers.map Tracker.status =
        [.failed ⟨"boom", "merge panicked: renderer exploded"⟩, .complete [("other", 0)]] ∧
      finish.handles = [.settled (.ok .empty), .settled (.error (.panicked "renderer exploded")),
        .settled (.ok .empty)] := by
  intro settings start finish
  have hbound {own : Nat} (hl : own < 2) (place : Nat) (hp : some own = some place) :
      place < 2 := by
    rwa [← Option.some.inj hp]
  have hr : Reached settings boom := by
    refine .enqueue (.enqueue (.enqueue (((Reached.opened 4).addTracker 2).addTracker 1)
      _ _ _ (hbound ?_) _) _ _ _ (hbound ?_) _) _ _ _ (hbound ?_) _ <;> decide
  exact ⟨hr, (Reached.batch_agrees hr).2 _ _ (.refl _) (List.reverse_perm _), by decide +kernel,
    rfl⟩

end LoanClosing
