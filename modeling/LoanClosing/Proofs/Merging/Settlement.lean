import LoanClosing.Proofs.Merging.Ledger

/-!
# Every job is settled once

What the ledger of a desk says about each job that was ever put into the queue, whatever has
happened at the desk: where the job is, who has heard of it, and what its handles show.
-/

namespace LoanClosing

namespace Ledger

variable {settings : MergeSettings} {ledger : Ledger}

/-- How the jobs of a ledger are settled. -/
structure Settled (settings : MergeSettings) (ledger : Ledger) : Prop where
  /-- The jobs taken out so far and those that wait are the jobs in the order in which they came. -/
  order : ledger.jobs = ledger.taken ++ ledger.desk.queue
  /-- No two jobs have the same number. -/
  distinct : (ledger.jobs.map Job.id).Nodup
  /-- No job gets lost, and none is there twice. -/
  conserved : (ledger.reported ++ ledger.dropped ++ ledger.desk.queue).Perm ledger.jobs
  /-- A job is queued, reported or dropped, and only one of these. -/
  placed : ∀ job ∈ ledger.jobs,
    (job ∈ ledger.desk.queue ∧ job ∉ ledger.reported ∧ job ∉ ledger.dropped) ∨
    (job ∉ ledger.desk.queue ∧ job ∈ ledger.reported ∧ job ∉ ledger.dropped) ∨
    (job ∉ ledger.desk.queue ∧ job ∉ ledger.reported ∧ job ∈ ledger.dropped)
  /-- Nothing but the reported jobs is announced, in the order of the reports: the output of each
  that succeeds, and the text of the error of each that fails. -/
  announced : ledger.desk.bulletin.announcements =
    ledger.reported.map fun job ↦
      ⟨job.id, job.key, (job.outcome settings).mapError MergeError.message⟩
  /-- A reported job is announced once. -/
  announcedOnce : ∀ job ∈ ledger.reported,
    (ledger.desk.bulletin.announcements.filter (·.job == job.id)).length = 1
  /-- A job that is not reported is not announced. -/
  unannounced : ∀ job ∈ ledger.jobs, job ∉ ledger.reported →
    ledger.desk.bulletin.announcements.filter (·.job == job.id) = []
  /-- A tracker has recorded once each of the reported jobs that are bound to it, and nothing
  else. -/
  recorded : ∀ (place : Nat) (tracker : Tracker), ledger.desk.trackers[place]? = some tracker →
    ∃ expected, tracker = (Tracker.ofExpected expected).after
      ((ledger.reported.filter (·.tracker == some place)).map fun job ↦
        (job.key, (job.outcome settings).mapError MergeError.message))
  /-- The tracker that a job is bound to is there. -/
  bound : ∀ job ∈ ledger.jobs, ∀ place, job.tracker = some place →
    ∃ tracker, ledger.desk.trackers[place]? = some tracker
  /-- Every handle was taken of one job. -/
  places : ledger.entered.flatMap Prod.snd = List.range ledger.desk.handles.length
  /-- All handles of a job before the last one are abandoned. -/
  replaced : ∀ entry ∈ ledger.entered, ∀ place ∈ entry.2.dropLast,
    ledger.desk.handles[place]? = some (.settled (.error .abandoned))
  /-- The last handle of a job waits with the job, then gives what the job came to; it is abandoned
  when the job is dropped. -/
  last : ∀ entry ∈ ledger.entered, ∀ place ∈ entry.2.getLast?,
    (entry.1 ∈ ledger.desk.queue → ledger.desk.handles[place]? = some .pending) ∧
    (entry.1 ∈ ledger.reported →
      ledger.desk.handles[place]? = some (.settled (entry.1.outcome settings))) ∧
    (entry.1 ∈ ledger.dropped →
      ledger.desk.handles[place]? = some (.settled (.error .abandoned)))
  /-- No handle ever tells that there are no slots. -/
  notClosed : ∀ place : Nat, ledger.desk.handles[place]? ≠ some (.settled (.error .closed))
  /-- A batch, and merging that is told to stop, leave no job in the queue. -/
  emptied : ∀ order : List Job, order.Perm ledger.desk.queue →
    (ledger.batch settings order).desk.queue = [] ∧
      (ledger.runStopped settings order).desk.queue = []

namespace Kept

/-- No two jobs have the same number. -/
theorem nodup_id (h : ledger.Kept settings) : (ledger.jobs.map Job.id).Nodup := by
  rw [h.numbered]
  exact (List.nodup_range' 1 (by decide)).map fun a b he ↦ congrArg JobId.number he

/-- The jobs have the numbers from one up to how many there are. -/
theorem number_bounds (h : ledger.Kept settings) {job : Job} (hj : job ∈ ledger.jobs) :
    1 ≤ job.id.number ∧ job.id.number ≤ ledger.jobs.length := by
  have hm : job.id ∈ ledger.jobs.map Job.id := List.mem_map_of_mem hj
  rw [h.numbered] at hm
  obtain ⟨number, hn, hi⟩ := List.mem_map.mp hm
  rw [List.mem_range'_1] at hn
  rw [← hi, jobs, List.length_map]
  exact ⟨hn.1, Nat.lt_one_add_iff.mp hn.2⟩

/-- A job is reported, dropped or waits, and only one of these. -/
theorem placed (h : ledger.Kept settings) {job : Job} (hj : job ∈ ledger.jobs) :
    (job ∈ ledger.desk.queue ∧ job ∉ ledger.reported ∧ job ∉ ledger.dropped) ∨
    (job ∉ ledger.desk.queue ∧ job ∈ ledger.reported ∧ job ∉ ledger.dropped) ∨
    (job ∉ ledger.desk.queue ∧ job ∉ ledger.reported ∧ job ∈ ledger.dropped) := by
  have hn : (ledger.reported ++ ledger.dropped ++ ledger.desk.queue).Nodup :=
    h.perm_jobs.nodup_iff.mpr (.of_map Job.id h.nodup_id)
  obtain ⟨hleft, -, hqueue⟩ := List.nodup_append.mp hn
  obtain ⟨-, -, hdropped⟩ := List.nodup_append.mp hleft
  have hm := h.perm_jobs.mem_iff.mpr hj
  rw [List.mem_append, List.mem_append] at hm
  obtain (hr | hd) | hq := hm
  · exact .inr (.inl ⟨fun hq ↦ hqueue job (List.mem_append_left _ hr) job hq rfl, hr,
      fun hd ↦ hdropped job hr job hd rfl⟩)
  · exact .inr (.inr ⟨fun hq ↦ hqueue job (List.mem_append_right _ hd) job hq rfl,
      fun hr ↦ hdropped job hr job hd rfl, hd⟩)
  · exact .inl ⟨hq, fun hr ↦ hqueue job (List.mem_append_left _ hr) job hq rfl,
      fun hd ↦ hqueue job (List.mem_append_right _ hd) job hq rfl⟩

/-- The numbers of the jobs that are announced are those of the reported jobs. -/
theorem length_announced (h : ledger.Kept settings) (id : JobId) :
    (ledger.desk.bulletin.announcements.filter (·.job == id)).length =
      (ledger.reported.map Job.id).count id := by
  rw [h.announced, List.filter_map, List.length_map, List.count, List.countP_map,
    List.countP_eq_length_filter]
  rfl

/-- A reported job is announced once. -/
theorem announced_once (h : ledger.Kept settings) {job : Job} (hj : job ∈ ledger.reported) :
    (ledger.desk.bulletin.announcements.filter (·.job == job.id)).length = 1 := by
  have hn : ((ledger.reported ++ ledger.dropped ++ ledger.desk.queue).map Job.id).Nodup :=
    (h.perm_jobs.map Job.id).nodup_iff.mpr h.nodup_id
  rw [List.map_append, List.map_append] at hn
  have hr := (List.nodup_append.mp (List.nodup_append.mp hn).1).1
  rw [h.length_announced, List.count_eq_one_of_mem hr (List.mem_map_of_mem hj)]

/-- A job that is not reported is not announced. -/
theorem not_announced (h : ledger.Kept settings) {job : Job} (hj : job ∈ ledger.jobs)
    (hr : job ∉ ledger.reported) :
    ledger.desk.bulletin.announcements.filter (·.job == job.id) = [] := by
  rw [← List.length_eq_zero_iff, h.length_announced, List.count_eq_zero]
  intro hm
  obtain ⟨other, ho, he⟩ := List.mem_map.mp hm
  have hin : other ∈ ledger.jobs :=
    h.perm_jobs.mem_iff.mp (List.mem_append_left _ (List.mem_append_left _ ho))
  exact hr (List.inj_on_of_nodup_map h.nodup_id hin hj he ▸ ho)

/-- No handle ever tells that there are no slots. -/
theorem not_closed (h : ledger.Kept settings) (place : Nat) :
    ledger.desk.handles[place]? ≠ some (.settled (.error .closed)) := by
  intro hc
  have hm : place ∈ ledger.entered.flatMap Prod.snd := by
    rw [h.places]
    exact List.mem_range.mpr (List.getElem?_eq_some_iff.mp hc).1
  have hl := (perm_lastPlaces ledger.entered).mem_iff.mpr hm
  rw [← h.filterMap_handle] at hl
  obtain hl | hl := List.mem_append.mp hl
  · obtain ⟨entry, he, hp⟩ := List.mem_flatMap.mp hl
    have hr := h.replaced entry he place hp
    rw [hc] at hr
    cases hr
  · obtain ⟨job, hj, hp⟩ := List.mem_filterMap.mp hl
    obtain ⟨hq, -, -⟩ | ⟨-, hr, -⟩ | ⟨-, -, hd⟩ := h.placed hj
    · have hs := h.waiting job hq place hp
      rw [hc] at hs
      cases hs
    · have hs := h.settled job hr place hp
      rw [hc] at hs
      injection hs with hs
      injection hs with hs
      exact (Job.outcome_eq_error hs.symm).1 rfl
    · have hs := h.abandoned job hd place hp
      rw [hc] at hs
      cases hs

end Kept

/-- Whatever has happened at a desk, every job that was put into the queue is settled once. -/
theorem Reached.settled_once (h : Reached settings ledger) : ledger.Settled settings where
  order := h.kept.order
  distinct := h.kept.nodup_id
  conserved := h.kept.perm_jobs
  placed := by
    intro job hj
    exact h.kept.placed hj
  announced := h.kept.announced
  announcedOnce := by
    intro job hj
    exact h.kept.announced_once hj
  unannounced := by
    intro job hj hr
    exact h.kept.not_announced hj hr
  recorded := h.kept.recorded
  bound := by
    intro job hj place ht
    exact ⟨_, List.getElem?_eq_getElem (h.kept.bound job hj place ht)⟩
  places := h.kept.places
  replaced := h.kept.replaced
  last := by
    intro entry he place hp
    have hh : entry.1.handle = some place := (h.kept.last entry he).trans hp
    exact ⟨fun hq ↦ h.kept.waiting entry.1 hq place hh,
      fun hr ↦ h.kept.settled entry.1 hr place hh,
      fun hd ↦ h.kept.abandoned entry.1 hd place hh⟩
  notClosed := h.kept.not_closed
  emptied := by
    intro order ho
    exact ⟨Desk.queue_batch .., Desk.queue_batch ..⟩

/-- Sixty-four bits hold the numbers of all jobs as long as there are not `2 ^ 64` of them, so that
no two jobs have the same one. -/
theorem Reached.word_id (h : Reached settings ledger) (hl : ledger.jobs.length < UInt64.size) :
    (∀ job ∈ ledger.jobs, job.id.word.toNat = job.id.number) ∧
      (ledger.jobs.map (·.id.word)).Nodup := by
  have hword : ∀ job ∈ ledger.jobs, job.id.word.toNat = job.id.number := by
    intro job hj
    have hle := (h.kept.number_bounds hj).2
    exact UInt64.toNat_ofNat_of_lt' (Nat.lt_of_le_of_lt hle hl)
  have hn : (ledger.jobs.map Job.id).Nodup := h.kept.nodup_id
  refine ⟨hword, List.Nodup.map_on ?_ (.of_map Job.id hn)⟩
  intro job hj other ho he
  refine List.inj_on_of_nodup_map hn hj ho (congrArg JobId.mk ?_)
  rw [← hword job hj, ← hword other ho, he]

/-- A desk where a note and a deed are merged, the deed reported first, and a rider is dropped. The
note is bound to a tracker, and two handles were taken of it. -/
def riderDropped (settings : MergeSettings) : Ledger :=
  let waiting := (((opened 4).addTracker 1).enqueue "note" ⟨"Note", []⟩ .null (some 0) 2).enqueue
    "deed" ⟨"Deed", []⟩ .null none 1
  ((waiting.batch settings waiting.desk.queue.reverse).enqueue "rider" ⟨"Rider", []⟩ .null none
    1).dropPending

/-- The handle of the note that was replaced and that of the rider are abandoned; the others give
the outputs. -/
theorem settled_once_riderDropped :
    let settings : MergeSettings := ⟨⟨"Loan", 2⟩, .plainText⟩
    let ledger := riderDropped settings
    Reached settings ledger ∧ ledger.Settled settings ∧
      ledger.desk.handles = [.settled (.error .abandoned), .settled (.ok .empty),
        .settled (.ok .empty), .settled (.error .abandoned)] := by
  intro settings ledger
  have hfree (count place : Nat) (hp : none = some place) : place < count := by cases hp
  have hbound (place : Nat) (hp : some 0 = some place) : place < 1 := by
    obtain rfl := Option.some.inj hp
    exact Nat.zero_lt_one
  have hr : Reached settings ledger := by
    refine .dropPending (.enqueue (.batch ?_ (List.reverse_perm _)) _ _ _ (hfree _) _)
    exact .enqueue (.enqueue ((Reached.opened 4).addTracker 1) _ _ _ hbound _) _ _ _ (hfree _) _
  exact ⟨hr, Reached.settled_once hr, rfl⟩

end Ledger

end LoanClosing
