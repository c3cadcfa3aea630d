import LoanClosing.Json.Basic
import LoanClosing.Table

/-!
# Trackers

A tracker waits for a number of merges. It is resolved by the first failure, or by the last of the
successes it waits for; what is recorded after that is ignored. Outputs are kept under the keys of
their jobs, in byte order; a failure gives none of them away.
-/

namespace LoanClosing

/-- A merge that failed. -/
structure MergeFailure where
  key : String
  reason : String
  deriving DecidableEq, Repr

/-- The text of a failure. -/
def MergeFailure.message (failure : MergeFailure) : String :=
  "merge of '" ++ failure.key ++ "' failed: " ++ failure.reason

/-- Outputs under the keys of their jobs. -/
abbrev Outputs := List (String × ByteArray)

/-- How a tracker was resolved. -/
inductive Outcome where
  | complete (outputs : Outputs)
  | failed (failure : MergeFailure)

/-- A tracker. -/
structure Tracker where
  /-- The number of merges waited for at the start. -/
  expected : Nat
  /-- The number of merges still waited for. -/
  remaining : Nat
  /-- The outputs so far, while the tracker is not resolved. -/
  outputs : Outputs
  outcome : Option Outcome
  /-- Whether those who wait are told to go on. -/
  isResolved : Bool

/-- What a tracker shows. -/
inductive TrackerStatus where
  | pending (expected remaining : Nat)
  /-- The sizes of the outputs in bytes. -/
  | complete (sizes : List (String × Nat))
  | failed (failure : MergeFailure)
  deriving DecidableEq, Repr

namespace Tracker

/-- A tracker for a number of merges; one for none is complete. -/
def ofExpected (expected : Nat) : Tracker where
  expected := expected
  remaining := expected
  outputs := []
  outcome := if expected = 0 then some (.complete []) else none
  isResolved := expected == 0

/-- Records a success; tells whether it counted. -/
def recordSuccess (tracker : Tracker) (key : String) (output : ByteArray) : Tracker × Bool :=
  match tracker.outcome with
  | some _ => (tracker, false)
  | none =>
    let outputs := Table.putSorted key output tracker.outputs
    let remaining := tracker.remaining - 1
    if remaining = 0 then
      ({ tracker with
          remaining := 0, outputs := [], outcome := some (.complete outputs), isResolved := true },
        true)
    else ({ tracker with remaining := remaining, outputs := outputs }, true)

/-- Records a failure; tells whether it counted. -/
def recordFailure (tracker : Tracker) (key reason : String) : Tracker × Bool :=
  match tracker.outcome with
  | some _ => (tracker, false)
  | none =>
    ({ tracker with outputs := [], outcome := some (.failed ⟨key, reason⟩), isResolved := true },
      true)

/-- Records the result of a job. -/
def record (tracker : Tracker) (key : String) : Except String ByteArray → Tracker × Bool
  | .ok output => tracker.recordSuccess key output
  | .error reason => tracker.recordFailure key reason

/-- What a tracker shows. -/
def status (tracker : Tracker) : TrackerStatus :=
  match tracker.outcome with
  | none => .pending tracker.expected tracker.remaining
  | some (.complete outputs) =>
    .complete (outputs.map fun (key, output) ↦ (key, output.size))
  | some (.failed failure) => .failed failure

/-- What those who wait are given once they are told to go on. -/
def result (tracker : Tracker) : Except MergeFailure Outputs :=
  match tracker.outcome with
  | some (.complete outputs) => .ok outputs
  | some (.failed failure) => .error failure
  | none => .error ⟨"", "tracker resolved without an outcome"⟩

/-- What one who waits is given, if there is no need to wait. -/
def wait? (tracker : Tracker) : Option (Except MergeFailure Outputs) :=
  if tracker.isResolved then some tracker.result else none

end Tracker

namespace TrackerStatus

/-- Writes a status. -/
def toJson : TrackerStatus → Json
  | .pending expected remaining =>
    .object [("state", .text "pending"), ("expected", .nat expected), ("remaining", .nat remaining)]
  | .complete sizes =>
    .object [("state", .text "complete"),
      ("documents", .object (sizes.map fun (key, size) ↦ (key, .nat size)))]
  | .failed failure =>
    .object [("state", .text "failed"),
      ("failure", .object [("key", .text failure.key), ("reason", .text failure.reason)])]

end TrackerStatus

end LoanClosing
