import LoanClosing.Proofs.Merging.Batch
import Mathlib.Data.List.Nodup
import Mathlib.Data.List.Range

/-!
# The ledger of a desk

A ledger is a desk together with what has happened to its jobs: which were put into the queue and
which handles were taken of them, which were taken out again, and which of those were reported or
dropped. Jobs are put in at any time between two calls, a batch reports its jobs in any order, and
the queue may be dropped. Whatever happens, every job is settled once: it is queued, reported or
dropped, its tracker and the bulletin hear of it when it is reported and not before, and each of its
handles tells what became of the job.
-/

namespace LoanClosing

/-- A desk and what has happened to its jobs. -/
structure Ledger where
  desk : Desk
  /-- The jobs put into the queue, first one first, and the handles taken of each. -/
  entered : List (Job × List Nat)
  /-- The jobs taken out of the queue, first one first. -/
  taken : List Job
  /-- The jobs that are reported, in the order of the reports. -/
  reported : List Job
  dropped : List Job

namespace Ledger

/-- The jobs put into the queue, first one first. -/
def jobs (ledger : Ledger) : List Job := ledger.entered.map Prod.fst

/-- A desk where nothing has happened. -/
def opened (capacity : Nat) : Ledger := ⟨.opened capacity, [], [], [], []⟩

/-- A tracker for a number of merges is added. -/
def addTracker (ledger : Ledger) (expected : Nat) : Ledger :=
  { ledger with desk := (ledger.desk.addTracker (.ofExpected expected)).1 }

/-- A new job is put into the queue after a number of handles is taken of it. -/
def enqueue (ledger : Ledger) (key : String) (document : Document) (model : Value)
    (tracker : Option Nat) (handles : Nat) : Ledger :=
  let (desk, job) := ledger.desk.newJob key document model tracker
  let (desk, job, places) := desk.takeHandles job handles
  { ledger with desk := desk.enqueue job, entered := ledger.entered ++ [(job, places)] }

/-- All jobs that wait are taken as one batch, merged, and reported in the order given. -/
def batch (settings : MergeSettings) (ledger : Ledger) (order : List Job) : Ledger :=
  { ledger with
    desk := ledger.desk.batch settings order
    taken := ledger.taken ++ ledger.desk.queue
    reported := ledger.reported ++ order }

/-- Merging in batches that is told to stop from the start: a batch, reported in the order given,
and a last one for what is still there, which is nothing. -/
def runStopped (settings : MergeSettings) (ledger : Ledger) (order : List Job) : Ledger :=
  (ledger.batch settings order).batch settings []

/-- All jobs that wait are taken and dropped. -/
def dropPending (ledger : Ledger) : Ledger :=
  let (desk, jobs) := ledger.desk.dropPending
  { ledger with desk := desk, taken := ledger.taken ++ jobs, dropped := ledger.dropped ++ jobs }

/-- The ledgers that can be reached. -/
inductive Reached (settings : MergeSettings) : Ledger → Prop where
  | opened (capacity : Nat) : Reached settings (opened capacity)
  | addTracker {ledger : Ledger} (h : Reached settings ledger) (expected : Nat) :
    Reached settings (ledger.addTracker expected)
  | enqueue {ledger : Ledger} (h : Reached settings ledger) (key : String) (document : Document)
    (model : Value) {tracker : Option Nat}
    (ht : ∀ place, tracker = some place → place < ledger.desk.trackers.length) (handles : Nat) :
    Reached settings (ledger.enqueue key document model tracker handles)
  | batch {ledger : Ledger} (h : Reached settings ledger) {order : List Job}
    (ho : order.Perm ledger.desk.queue) : Reached settings (ledger.batch settings order)
  | runStopped {ledger : Ledger} (h : Reached settings ledger) {order : List Job}
    (ho : order.Perm ledger.desk.queue) : Reached settings (ledger.runStopped settings order)
  | dropPending {ledger : Ledger} (h : Reached settings ledger) :
    Reached settings ledger.dropPending

end Ledger

/-! ### Taking handles -/

namespace Desk

/-- What the handles taken of a job show before it is reported: only the last one is waited on. -/
def takenHandles : Nat → List Handle
  | 0 => []
  | n + 1 => List.replicate n (.settled (.error .abandoned)) ++ [.pending]

@[simp] theorem length_takenHandles (n : Nat) : (takenHandles n).length = n := by
  cases n <;> simp [takenHandles]

/-- Handles taken of a job whose last handle is the newest one of the desk. -/
theorem takeHandles_eq_of_last (desk : Desk) (job : Job) (handles : List Handle)
    (hd : desk.handles = handles ++ [.pending]) (hj : job.handle = some handles.length) (n : Nat) :
    desk.takeHandles job n =
      ({ desk with handles := handles ++ takenHandles (n + 1) },
        { job with handle := some (handles.length + n) },
        List.range' (handles.length + 1) n) := by
  induction n generalizing desk job handles with
  | zero =>
    obtain ⟨id, key, document, model, tracker, handle⟩ := job
    obtain rfl : handle = some handles.length := hj
    simp only [takeHandles, takenHandles, List.replicate_zero, List.nil_append, ← hd, Nat.add_zero,
      List.range'_zero]
  | succ n ih =>
    have hs : desk.settle (.error .abandoned) job.handle =
        { desk with handles := handles ++ [.settled (.error .abandoned)] } := by
      simp [hj, settle, hd]
    have hn : takenHandles (n + 1 + 1) = .settled (.error .abandoned) :: takenHandles (n + 1) := by
      simp [takenHandles, List.replicate_succ]
    rw [takeHandles, takeHandle, hs]
    simp only
    rw [ih _ _ (handles ++ [.settled (.error .abandoned)]) rfl rfl, hn, List.range'_succ]
    simp [Nat.add_comm, Nat.add_left_comm]

/-- Handles taken of a job of which none was taken before. -/
theorem takeHandles_eq {job : Job} (hj : job.handle = none) (desk : Desk) (n : Nat) :
    desk.takeHandles job n =
      ({ desk with handles := desk.handles ++ takenHandles n },
        { job with handle := (List.range' desk.handles.length n).getLast? },
        List.range' desk.handles.length n) := by
  obtain ⟨id, key, document, model, tracker, handle⟩ := job
  obtain rfl : handle = none := hj
  cases n with
  | zero => simp [takeHandles, takenHandles]
  | succ n =>
    have hl := takeHandles_eq_of_last { desk with handles := desk.handles ++ [.pending] }
      ⟨id, key, document, model, tracker, some desk.handles.length⟩ desk.handles rfl rfl n
    rw [takeHandles, takeHandle]
    simp only [settle, hl, List.getLast?_range']
    rw [List.range'_succ]
    simp

end Desk

namespace Ledger

/-- The job that is put into the queue next, with its handles. -/
def nextEntry (ledger : Ledger) (key : String) (document : Document) (model : Value)
    (tracker : Option Nat) (handles : Nat) : Job × List Nat :=
  let places := List.range' ledger.desk.handles.length handles
  (⟨⟨ledger.desk.nextJob⟩, key, document, model, tracker, places.getLast?⟩, places)

/-- Putting a job into the queue adds its entry and the handles taken of it. -/
theorem enqueue_eq (ledger : Ledger) (key : String) (document : Document) (model : Value)
    (tracker : Option Nat) (handles : Nat) :
    let entry := ledger.nextEntry key document model tracker handles
    ledger.enqueue key document model tracker handles =
      { ledger with
        desk := { ledger.desk with
          queue := ledger.desk.queue ++ [entry.1]
          handles := ledger.desk.handles ++ Desk.takenHandles handles
          nextJob := ledger.desk.nextJob + 1 }
        entered := ledger.entered ++ [entry] } := by
  simp only [enqueue, Desk.newJob, Desk.takeHandles_eq, Desk.enqueue, nextEntry]

/-! ### What the ledger says about its handles -/

/-- The last place of a list is taken apart from all the places before it. -/
theorem perm_lastPlaces (entered : List (Job × List Nat)) :
    (entered.flatMap (·.2.dropLast) ++ entered.filterMap (·.2.getLast?)).Perm
      (entered.flatMap Prod.snd) := by
  induction entered with
  | nil => exact .refl _
  | cons entry entered ih =>
    obtain ⟨job, places⟩ := entry
    cases places using List.reverseRecOn with
    | nil => simpa [List.filterMap_cons] using ih
    | append_singleton places place =>
      simp only [List.flatMap_cons, List.filterMap_cons, List.getLast?_concat, List.dropLast_concat,
        List.append_assoc, List.singleton_append]
      exact (List.perm_middle.trans (ih.cons place)).append_left places

/-- What a ledger says that is kept as it should be. -/
structure Kept (settings : MergeSettings) (ledger : Ledger) : Prop where
  /-- Jobs leave the queue in the order in which they came. -/
  order : ledger.jobs = ledger.taken ++ ledger.desk.queue
  /-- What is taken out is reported or dropped. -/
  taken : ledger.taken.Perm (ledger.reported ++ ledger.dropped)
  /-- Jobs are numbered one after another. -/
  numbered : ledger.jobs.map Job.id = (List.range' 1 ledger.entered.length).map JobId.mk
  nextJob : ledger.desk.nextJob = ledger.entered.length + 1
  announced : ledger.desk.bulletin.announcements =
    ledger.reported.map (Job.announcement settings)
  /-- A tracker has recorded the reported jobs that are bound to it, and nothing else. -/
  recorded : ∀ (place : Nat) (tracker : Tracker), ledger.desk.trackers[place]? = some tracker →
    ∃ expected, tracker = (Tracker.ofExpected expected).after
      ((ledger.reported.filter (·.tracker == some place)).map (Job.entry settings))
  bound : ∀ job ∈ ledger.jobs, ∀ place, job.tracker = some place →
    place < ledger.desk.trackers.length
  /-- Every handle was taken of one job. -/
  places : ledger.entered.flatMap Prod.snd = List.range ledger.desk.handles.length
  /-- A job knows the handle taken last. -/
  last : ∀ entry ∈ ledger.entered, entry.1.handle = entry.2.getLast?
  /-- All handles before the last one are abandoned. -/
  replaced : ∀ entry ∈ ledger.entered, ∀ place ∈ entry.2.dropLast,
    ledger.desk.handles[place]? = some (.settled (.error .abandoned))
  waiting : ∀ job ∈ ledger.desk.queue, ∀ place, job.handle = some place →
    ledger.desk.handles[place]? = some .pending
  settled : ∀ job ∈ ledger.reported, ∀ place, job.handle = some place →
    ledger.desk.handles[place]? = some (.settled (job.outcome settings))
  abandoned : ∀ job ∈ ledger.dropped, ∀ place, job.handle = some place →
    ledger.desk.handles[place]? = some (.settled (.error .abandoned))

namespace Kept

variable {settings : MergeSettings} {ledger : Ledger} {order : List Job}

/-- The handles taken last are those that the jobs know. -/
theorem filterMap_handle (h : ledger.Kept settings) :
    ledger.jobs.filterMap Job.handle = ledger.entered.filterMap (·.2.getLast?) := by
  rw [jobs, List.filterMap_map]
  exact List.filterMap_congr h.last

/-- No handle was taken twice. -/
theorem nodup_places (h : ledger.Kept settings) :
    (ledger.entered.flatMap (·.2.dropLast) ++ ledger.jobs.filterMap Job.handle).Nodup := by
  rw [h.filterMap_handle, (perm_lastPlaces ledger.entered).nodup_iff, h.places]
  exact List.nodup_range

/-- The jobs are those that are reported, those that are dropped, and those that wait. -/
theorem perm_jobs (h : ledger.Kept settings) :
    (ledger.reported ++ ledger.dropped ++ ledger.desk.queue).Perm ledger.jobs := by
  rw [h.order]
  exact h.taken.symm.append_right _

/-- The handles of reported, dropped and waiting jobs are all different. -/
theorem nodup_handles (h : ledger.Kept settings) :
    ((ledger.reported ++ ledger.dropped ++ ledger.desk.queue).filterMap Job.handle).Nodup :=
  (h.perm_jobs.filterMap _).nodup_iff.mpr (List.nodup_append.mp h.nodup_places).2.1

/-- Whatever waits at the desk can be settled. -/
theorem waits (h : ledger.Kept settings) : ledger.desk.Waits ledger.desk.queue := by
  have hn := h.nodup_handles
  rw [List.filterMap_append] at hn
  refine ⟨(List.nodup_append.mp hn).2.1, fun place hm ↦ ?_⟩
  obtain ⟨job, hj, hp⟩ := List.mem_filterMap.mp hm
  exact h.waiting job hj place hp

/-- A handle that was replaced is none that waits. -/
theorem notMem_of_replaced (h : ledger.Kept settings) {entry : Job × List Nat} {place : Nat}
    (he : entry ∈ ledger.entered) (hp : place ∈ entry.2.dropLast) :
    place ∉ ledger.desk.queue.filterMap Job.handle := by
  intro hm
  have hin : place ∈ ledger.entered.flatMap (·.2.dropLast) := List.mem_flatMap.mpr ⟨entry, he, hp⟩
  have hlast : place ∈ ledger.jobs.filterMap Job.handle := by
    rw [h.order, List.filterMap_append]
    exact List.mem_append_right _ hm
  exact (List.nodup_append.mp h.nodup_places).2.2 place hin place hlast rfl

/-- The handle of a job that is reported or dropped is none that waits. -/
theorem notMem_of_taken (h : ledger.Kept settings) {job : Job} {place : Nat}
    (hj : job ∈ ledger.reported ++ ledger.dropped) (hp : job.handle = some place) :
    place ∉ ledger.desk.queue.filterMap Job.handle := by
  intro hm
  have hn := h.nodup_handles
  rw [List.filterMap_append] at hn
  exact (List.nodup_append.mp hn).2.2 place (List.mem_filterMap.mpr ⟨job, hj, hp⟩) place hm rfl

/-- The ledger of a desk where nothing has happened. -/
theorem opened (settings : MergeSettings) (capacity : Nat) :
    (opened capacity).Kept settings where
  order := rfl
  taken := .refl _
  numbered := rfl
  nextJob := rfl
  announced := rfl
  recorded := by simp [Ledger.opened, Desk.opened]
  bound := by simp [Ledger.opened, jobs]
  places := rfl
  last := by simp [Ledger.opened]
  replaced := by simp [Ledger.opened]
  waiting := by simp [Ledger.opened, Desk.opened]
  settled := by simp [Ledger.opened]
  abandoned := by simp [Ledger.opened]

/-- No job is bound to a tracker that is added. -/
theorem addTracker (h : ledger.Kept settings) (expected : Nat) :
    (ledger.addTracker expected).Kept settings where
  order := h.order
  taken := h.taken
  numbered := h.numbered
  nextJob := h.nextJob
  announced := h.announced
  recorded := by
    intro place tracker ht
    rw [Ledger.addTracker, Desk.addTracker] at ht
    have hlt : place < ledger.desk.trackers.length + 1 := by
      simpa using (List.getElem?_eq_some_iff.mp ht).1
    by_cases hp : place < ledger.desk.trackers.length
    · rw [List.getElem?_append_left hp] at ht
      exact h.recorded place tracker ht
    · obtain rfl : place = ledger.desk.trackers.length := by omega
      rw [List.getElem?_concat_length, Option.some.injEq] at ht
      have hnone : ledger.reported.filter (·.tracker == some ledger.desk.trackers.length) = [] := by
        rw [List.filter_eq_nil_iff]
        intro job hj hb
        have hin : job ∈ ledger.jobs :=
          h.perm_jobs.mem_iff.mp (List.mem_append_left _ (List.mem_append_left _ hj))
        exact Nat.lt_irrefl _ (h.bound job hin _ (by simpa using hb))
      refine ⟨expected, ?_⟩
      rw [← ht]
      change _ = (Tracker.ofExpected expected).after ((ledger.reported.filter _).map _)
      rw [hnone]
      rfl
  bound := by
    intro job hj place ht
    have hlt := h.bound job hj place ht
    rw [Ledger.addTracker, Desk.addTracker, List.length_append]
    exact Nat.lt_add_right _ hlt
  places := h.places
  last := h.last
  replaced := h.replaced
  waiting := h.waiting
  settled := h.settled
  abandoned := h.abandoned

/-- A job that is put into the queue has the next number and the newest handles. -/
theorem enqueue (h : ledger.Kept settings) (key : String) (document : Document) (model : Value)
    {tracker : Option Nat}
    (ht : ∀ place, tracker = some place → place < ledger.desk.trackers.length) (handles : Nat) :
    (ledger.enqueue key document model tracker handles).Kept settings := by
  have hold {place : Nat} {handle : Handle} (hp : ledger.desk.handles[place]? = some handle) :
      (ledger.desk.handles ++ Desk.takenHandles handles)[place]? = some handle := by
    rw [List.getElem?_append_left (List.getElem?_eq_some_iff.mp hp).1, hp]
  rw [enqueue_eq]
  exact
    { order := by
        simp only [jobs, List.map_append, List.map_cons, List.map_nil, ← List.append_assoc]
        rw [← h.order, jobs]
      taken := h.taken
      numbered := by
        have hn := h.numbered
        rw [jobs] at hn
        simp only [jobs, List.map_append, hn, List.length_append, List.length_singleton,
          List.map_cons, List.map_nil, List.range'_concat, nextEntry, h.nextJob, Nat.one_mul,
          Nat.add_comm 1]
      nextJob := by simp [h.nextJob]
      announced := h.announced
      recorded := h.recorded
      bound := by
        intro job hj place hp
        rw [jobs, List.map_append, List.mem_append] at hj
        obtain hj | hj := hj
        · exact h.bound job hj place hp
        · obtain rfl : job = _ := List.mem_singleton.mp hj
          exact ht place hp
      places := by
        simp only [List.flatMap_append, List.flatMap_singleton, h.places, nextEntry,
          List.length_append, Desk.length_takenHandles, List.range_eq_range']
        rw [List.range'_append_1.symm, Nat.zero_add]
      last := by
        intro entry he
        obtain he | he := List.mem_append.mp he
        · exact h.last entry he
        · rw [List.mem_singleton.mp he, nextEntry]
      replaced := by
        intro entry he place hp
        obtain he | he := List.mem_append.mp he
        · exact hold (h.replaced entry he place hp)
        · obtain rfl := List.mem_singleton.mp he
          cases handles with
          | zero => simp [nextEntry] at hp
          | succ n =>
            simp only [nextEntry, List.range'_concat, List.dropLast_concat, List.mem_range'_1] at hp
            rw [List.getElem?_append_right hp.1, Desk.takenHandles, List.getElem?_append_left
              (by rw [List.length_replicate]; omega), List.getElem?_replicate, if_pos (by omega)]
      waiting := by
        intro job hj place hp
        obtain hj | hj := List.mem_append.mp hj
        · exact hold (h.waiting job hj place hp)
        · obtain rfl := List.mem_singleton.mp hj
          cases handles with
          | zero => simp [nextEntry] at hp
          | succ n =>
            simp only [nextEntry, List.range'_concat, List.getLast?_concat, Option.some.injEq,
              Nat.one_mul] at hp
            subst hp
            rw [List.getElem?_append_right (by omega), Desk.takenHandles, Nat.add_sub_cancel_left,
              List.getElem?_append_right (by rw [List.length_replicate]), List.length_replicate,
              Nat.sub_self, List.getElem?_cons_zero]
      settled := fun job hj place hp ↦ hold (h.settled job hj place hp)
      abandoned := fun job hj place hp ↦ hold (h.abandoned job hj place hp) }

/-- A batch reports all jobs that wait, in whichever order. -/
theorem batch (h : ledger.Kept settings) (ho : order.Perm ledger.desk.queue) :
    (ledger.batch settings order).Kept settings := by
  have hl := Desk.batchLeft_batch settings h.waits ho
  have hm (place : Nat) (hn : place ∉ ledger.desk.queue.filterMap Job.handle) :
      (ledger.desk.batch settings order).handles[place]? = ledger.desk.handles[place]? :=
    hl.others place fun hp ↦ hn ((ho.filterMap _).mem_iff.mp hp)
  exact
    { order := by
        simp only [Ledger.batch, hl.queue, List.append_nil]
        exact h.order
      taken := by
        simp only [Ledger.batch]
        refine (h.taken.append ho.symm).trans ?_
        rw [List.append_assoc, List.append_assoc]
        exact List.perm_append_comm.append_left _
      numbered := h.numbered
      nextJob := hl.nextJob.trans h.nextJob
      announced := by
        simp only [Ledger.batch, hl.announcements, h.announced, List.map_append]
      recorded := by
        intro place tracker ht
        simp only [Ledger.batch, hl.trackers, Option.map_eq_some_iff] at ht ⊢
        obtain ⟨before, hb, rfl⟩ := ht
        obtain ⟨expected, rfl⟩ := h.recorded place before hb
        exact ⟨expected, by rw [List.filter_append, List.map_append, Tracker.after_append]⟩
      bound := by
        intro job hj place hp
        have hlt := h.bound job hj place hp
        have hs := hl.trackers place
        rw [List.getElem?_eq_getElem hlt, Option.map_some] at hs
        exact (List.getElem?_eq_some_iff.mp hs).1
      places := by
        simp only [Ledger.batch, hl.length_handles]
        exact h.places
      last := h.last
      replaced := by
        intro entry he place hp
        simp only [Ledger.batch] at he ⊢
        rw [hm place (h.notMem_of_replaced he hp)]
        exact h.replaced entry he place hp
      waiting := by simp [Ledger.batch]
      settled := by
        intro job hj place hp
        simp only [Ledger.batch] at hj ⊢
        obtain hj | hj := List.mem_append.mp hj
        · rw [hm place (h.notMem_of_taken (List.mem_append_left _ hj) hp)]
          exact h.settled job hj place hp
        · exact hl.settled job hj place hp
      abandoned := by
        intro job hj place hp
        simp only [Ledger.batch] at hj ⊢
        rw [hm place (h.notMem_of_taken (List.mem_append_right _ hj) hp)]
        exact h.abandoned job hj place hp }

/-- Jobs that are dropped are taken out of the queue, and only their handles hear of it. -/
theorem dropPending (h : ledger.Kept settings) : ledger.dropPending.Kept settings := by
  obtain ⟨handles, hd⟩ := ledger.desk.exists_dropPending_eq
  have hlen := ledger.desk.length_handles_dropPending
  obtain ⟨hs, hm⟩ := Desk.getElem?_handles_dropPending h.waits
  rw [hd] at hs hm hlen
  rw [Ledger.dropPending, hd]
  exact
    { order := by
        simp only [List.append_nil]
        exact h.order
      taken := by
        rw [← List.append_assoc]
        exact h.taken.append_right _
      numbered := h.numbered
      nextJob := h.nextJob
      announced := h.announced
      recorded := h.recorded
      bound := h.bound
      places := by
        simp only at hlen ⊢
        rw [hlen]
        exact h.places
      last := h.last
      replaced := by
        intro entry he place hp
        exact (hm place (h.notMem_of_replaced he hp)).trans (h.replaced entry he place hp)
      waiting := nofun
      settled := by
        intro job hj place hp
        exact (hm place (h.notMem_of_taken (List.mem_append_left _ hj) hp)).trans
          (h.settled job hj place hp)
      abandoned := by
        intro job hj place hp
        obtain hj | hj := List.mem_append.mp hj
        · exact (hm place (h.notMem_of_taken (List.mem_append_right _ hj) hp)).trans
            (h.abandoned job hj place hp)
        · exact hs job hj place hp }

end Kept

/-- Every ledger that can be reached is kept as it should be. -/
theorem Reached.kept {settings : MergeSettings} {ledger : Ledger} (h : Reached settings ledger) :
    ledger.Kept settings := by
  induction h with
  | opened capacity => exact .opened settings capacity
  | addTracker h expected ih => exact ih.addTracker expected
  | enqueue h key document model ht handles ih => exact ih.enqueue key document model ht handles
  | batch h ho ih => exact ih.batch ho
  | runStopped h ho ih =>
    refine (ih.batch ho).batch ?_
    rw [Ledger.batch, Desk.queue_batch]
  | dropPending h ih => exact ih.dropPending

end Ledger

end LoanClosing
