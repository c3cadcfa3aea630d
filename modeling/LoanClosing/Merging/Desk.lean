import LoanClosing.Merging.Bulletin
import LoanClosing.Merging.Rendering
import LoanClosing.Merging.Tracker

/-!
# The merge desk

Jobs wait at the desk in the order in which they came. A batch takes all of them, merges each by
itself, and reports each result: to the tracker that the job is bound to, on the bulletin, and to
the handle that was taken last. A handle that another one replaced, and the handle of a job that was
dropped, tell that the job was abandoned.
-/

namespace LoanClosing

/-- What a handle shows. -/
inductive Handle where
  | pending
  | settled (result : Except MergeError ByteArray)

/-- A job: a document to be merged with the data of a loan. -/
structure Job where
  id : JobId
  /-- The key of the output. -/
  key : String
  document : Document
  model : Value
  /-- The tracker that waits for the job. -/
  tracker : Option Nat
  /-- The handle taken last. -/
  handle : Option Nat

/-- The desk. Trackers and handles are known by their places. -/
structure Desk where
  /-- The jobs that wait, first one first. -/
  queue : List Job
  trackers : List Tracker
  handles : List Handle
  bulletin : Bulletin
  /-- The number that the next job gets. -/
  nextJob : Nat

/-- How jobs are merged. -/
structure MergeSettings where
  processor : Processor
  renderer : Renderer

/-- The number of jobs merged at a time, which is at least one. -/
def slotCount (maxConcurrency : Nat) : Nat := max 1 maxConcurrency

namespace Desk

/-- A desk where nothing has happened. -/
def opened (capacity : Nat) : Desk := ⟨[], [], [], .ofCapacity capacity, 1⟩

/-- Adds a tracker. -/
def addTracker (desk : Desk) (tracker : Tracker) : Desk × Nat :=
  ({ desk with trackers := desk.trackers ++ [tracker] }, desk.trackers.length)

/-- Settles a handle, unless it is settled. -/
def settle (desk : Desk) (result : Except MergeError ByteArray) : Option Nat → Desk
  | none => desk
  | some place =>
    match desk.handles[place]? with
    | some .pending => { desk with handles := desk.handles.set place (.settled result) }
    | _ => desk

/-- Makes a job with the next number. -/
def newJob (desk : Desk) (key : String) (document : Document) (model : Value)
    (tracker : Option Nat) : Desk × Job :=
  ({ desk with nextJob := desk.nextJob + 1 }, ⟨⟨desk.nextJob⟩, key, document, model, tracker, none⟩)

/-- The next job has the next number also where numbers are counted in sixty-four bits. -/
theorem word_newJob (desk : Desk) (key : String) (document : Document) (model : Value)
    (tracker : Option Nat) :
    JobId.word ⟨(desk.newJob key document model tracker).1.nextJob⟩ =
      (desk.newJob key document model tracker).2.id.word + 1 := by
  rw [Desk.newJob, JobId.word, JobId.word, UInt64.ofNat_add]
  rfl

/-- Takes a handle of a job; the handle taken before is abandoned. -/
def takeHandle (desk : Desk) (job : Job) : Desk × Job × Nat :=
  let desk := desk.settle (.error .abandoned) job.handle
  ({ desk with handles := desk.handles ++ [.pending] },
    { job with handle := some desk.handles.length }, desk.handles.length)

/-- Takes several handles of a job, one after another. -/
def takeHandles (desk : Desk) (job : Job) : Nat → Desk × Job × List Nat
  | 0 => (desk, job, [])
  | n + 1 =>
    let (desk, job, place) := desk.takeHandle job
    let (desk, job, places) := takeHandles desk job n
    (desk, job, place :: places)

/-- Puts a job at the end of the queue. -/
def enqueue (desk : Desk) (job : Job) : Desk := { desk with queue := desk.queue ++ [job] }

/-- Reports the result of a job. -/
def report (desk : Desk) (job : Job) (result : Except MergeError ByteArray) : Desk :=
  let told := result.mapError MergeError.message
  let trackers := match job.tracker with
    | none => desk.trackers
    | some place => desk.trackers.modify place fun tracker ↦ (tracker.record job.key told).1
  { desk with
    trackers := trackers
    bulletin := desk.bulletin.announce ⟨job.id, job.key, told⟩ }.settle result job.handle

/-- Merges a job and reports the result. -/
def finish (settings : MergeSettings) (desk : Desk) (job : Job) : Desk :=
  desk.report job (merge settings.processor settings.renderer job.document job.model)

/-- Merges jobs and reports their results in the order given. -/
def finishAll (settings : MergeSettings) (desk : Desk) (jobs : List Job) : Desk :=
  jobs.foldl (finish settings) desk

/-- Merges all jobs that wait; tells how many there were. -/
def processPending (settings : MergeSettings) (desk : Desk) : Desk × Nat :=
  (finishAll settings { desk with queue := [] } desk.queue, desk.queue.length)

/-- Drops all jobs that wait; tells which. -/
def dropPending (desk : Desk) : Desk × List Job :=
  (desk.queue.foldl (fun desk job ↦ desk.settle (.error .abandoned) job.handle)
    { desk with queue := [] }, desk.queue)

/-- Merges in batches until told to stop, when that has happened already: one batch, and a last one
for what is still there. -/
def runStopped (settings : MergeSettings) (desk : Desk) : Desk :=
  ((desk.processPending settings).1.processPending settings).1

end Desk

end LoanClosing
