import LoanClosing.Merging.Desk

/-!
# The merging floor

Jobs taken from the queue are merged side by side, but only so many at a time. A job waits for a
slot, holds it while it is merged, and gives it back whatever came of the merge; then it is
reported. The floor shows one step of one job at a time, so any interleaving of the jobs is a list
of steps.
-/

namespace LoanClosing

/-- How far a job is that was taken from the queue. -/
inductive MergeProgress where
  /-- It waits for a slot. -/
  | waiting
  /-- It holds a slot. -/
  | merging
  /-- It has given its slot back, and its result is to be reported. -/
  | merged (result : Except MergeError ByteArray)

/-- Whether a job holds a slot. -/
def MergeProgress.holdsSlot : MergeProgress → Bool
  | .merging => true
  | .waiting | .merged _ => false

/-- A job that was taken from the queue. -/
structure MergeTask where
  job : Job
  progress : MergeProgress

/-- A desk and the jobs that are merged at it. Tasks are known by their places. -/
structure Floor where
  desk : Desk
  /-- How many slots nobody holds. -/
  free : Nat
  /-- The jobs taken from the queue and not reported. -/
  tasks : List MergeTask

/-- What can happen on the floor. -/
inductive FloorStep where
  /-- All jobs that wait at the desk are taken. -/
  | takeBatch
  /-- A task is given a slot. -/
  | start (place : Nat)
  /-- A task is merged. -/
  | finish (place : Nat)
  /-- The result of a task is reported. -/
  | report (place : Nat)
  deriving DecidableEq, Repr

namespace Floor

/-- A floor where nobody works. -/
def opened (maxConcurrency : Nat) (desk : Desk) : Floor := ⟨desk, slotCount maxConcurrency, []⟩

/-- The number of slots that are held. -/
def held (floor : Floor) : Nat := floor.tasks.countP (·.progress.holdsSlot)

/-- Takes all jobs that wait at the desk. -/
def takeBatch (floor : Floor) : Floor :=
  { floor with
    desk := { floor.desk with queue := [] }
    tasks := floor.tasks ++ floor.desk.queue.map (⟨·, .waiting⟩) }

/-- Gives a slot to a task that waits for one, if there is one. -/
def start? (floor : Floor) (place : Nat) : Option Floor :=
  match floor.tasks[place]?, floor.free with
  | some ⟨job, .waiting⟩, free + 1 =>
    some { floor with free := free, tasks := floor.tasks.set place ⟨job, .merging⟩ }
  | _, _ => none

/-- Merges the job of a task that holds a slot, and takes the slot back. -/
def finish? (settings : MergeSettings) (floor : Floor) (place : Nat) : Option Floor :=
  match floor.tasks[place]? with
  | some ⟨job, .merging⟩ =>
    let result := merge settings.processor settings.renderer job.document job.model
    some { floor with
      free := floor.free + 1, tasks := floor.tasks.set place ⟨job, .merged result⟩ }
  | _ => none

/-- Reports the result of a task that has one, which is done then. -/
def report? (floor : Floor) (place : Nat) : Option Floor :=
  match floor.tasks[place]? with
  | some ⟨job, .merged result⟩ =>
    some { floor with
      desk := floor.desk.report job result, tasks := floor.tasks.eraseIdx place }
  | _ => none

/-- One step, if it can happen. -/
def step? (settings : MergeSettings) (floor : Floor) : FloorStep → Option Floor
  | .takeBatch => some floor.takeBatch
  | .start place => floor.start? place
  | .finish place => floor.finish? settings place
  | .report place => floor.report? place

/-- Several steps, one after another, if all of them can happen. -/
def run? (settings : MergeSettings) (floor : Floor) (steps : List FloorStep) : Option Floor :=
  steps.foldlM (step? settings) floor

end Floor

end LoanClosing
