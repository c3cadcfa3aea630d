import LoanClosing.Merging.Tracker
import Mathlib.Data.List.Induction

/-!
# How a tracker is resolved

A tracker for a number of merges is resolved once, by the first failure or by the last of the
successes that it waits for, whichever is recorded first. Up to that record it is pending, and each
record counts; from then on no record counts and nothing changes any more. So the records alone say
what the tracker shows at any time.
-/

namespace LoanClosing

namespace Tracker

/-- The key of a job with its output, or with the reason why it failed. -/
abbrev Entry := String × Except String ByteArray

/-- Entries of successes. -/
def successes (recorded : Outputs) : List Entry :=
  recorded.map fun (key, output) ↦ (key, .ok output)

/-- The entry of a failure. -/
def failureEntry (failure : MergeFailure) : Entry := (failure.key, .error failure.reason)

/-- A tracker after entries are recorded, one after another. -/
def after (tracker : Tracker) (entries : List Entry) : Tracker :=
  entries.foldl (fun tracker (key, result) ↦ (tracker.record key result).1) tracker

/-- Whether each of the entries counts when they are recorded, one after another. -/
def answers (tracker : Tracker) : List Entry → List Bool
  | [] => []
  | (key, result) :: entries =>
    (tracker.record key result).2 :: (tracker.record key result).1.answers entries

/-- The entries of any history come down to one of three: successes, but not all that are waited
for; successes, not all of them, and then a failure; all successes that are waited for. -/
theorem entries_cases (expected : Nat) (entries : List Entry) :
    (∃ recorded, entries = successes recorded ∧ recorded.length < expected) ∨
    (∃ recorded failure later, entries = successes recorded ++ failureEntry failure :: later ∧
      recorded.length < expected) ∨
    ∃ recorded later, entries = successes recorded ++ later ∧ recorded.length = expected := by
  induction entries generalizing expected with
  | nil =>
    cases expected with
    | zero => exact .inr (.inr ⟨[], [], rfl, rfl⟩)
    | succ expected => exact .inl ⟨[], rfl, Nat.succ_pos expected⟩
  | cons entry entries ih =>
    cases expected with
    | zero => exact .inr (.inr ⟨[], entry :: entries, rfl, rfl⟩)
    | succ expected =>
      match entry with
      | (key, .error reason) =>
        exact .inr (.inl ⟨[], ⟨key, reason⟩, entries, rfl, Nat.succ_pos expected⟩)
      | (key, .ok output) =>
        obtain ⟨recorded, rfl, hl⟩ | ⟨recorded, failure, later, rfl, hl⟩ |
          ⟨recorded, later, rfl, hl⟩ := ih expected
        · exact .inl ⟨(key, output) :: recorded, rfl, Nat.succ_lt_succ hl⟩
        · exact .inr (.inl ⟨(key, output) :: recorded, failure, later, rfl, Nat.succ_lt_succ hl⟩)
        · exact .inr (.inr ⟨(key, output) :: recorded, later, rfl, congrArg Nat.succ hl⟩)

/-! ### One record -/

variable {tracker : Tracker} {expected : Nat} {recorded : Outputs}

/-- A tracker that is not resolved, with the outputs of the successes so far. -/
def waiting (expected : Nat) (recorded : Outputs) : Tracker :=
  ⟨expected, expected - recorded.length, Table.sorted recorded, none, false⟩

/-- A tracker that holds no outputs any more, but an outcome. -/
def resolved (expected remaining : Nat) (outcome : Outcome) : Tracker :=
  ⟨expected, remaining, [], some outcome, true⟩

/-- An entry that comes after the outcome is ignored. -/
theorem record_of_outcome {outcome : Outcome} (h : tracker.outcome = some outcome) (key : String)
    (result : Except String ByteArray) : tracker.record key result = (tracker, false) := by
  cases result with
  | ok output => simp only [record, recordSuccess, h]
  | error reason => simp only [record, recordFailure, h]

/-- A success that is not the last one waited for. -/
theorem record_ok_of_lt (h : recorded.length + 1 < expected) (key : String)
    (output : ByteArray) :
    (waiting expected recorded).record key (.ok output) =
      (waiting expected (recorded ++ [(key, output)]), true) := by
  have hr : expected - recorded.length - 1 = expected - (recorded.length + 1) := by omega
  have hz : expected - (recorded.length + 1) ≠ 0 := by omega
  simp only [record, recordSuccess, waiting, hr, hz, if_false, Table.sorted_append_singleton,
    List.length_append, List.length_singleton]

/-- The last success that is waited for. -/
theorem record_ok_of_eq (h : recorded.length + 1 = expected) (key : String)
    (output : ByteArray) :
    (waiting expected recorded).record key (.ok output) =
      (resolved expected 0 (.complete (Table.sorted (recorded ++ [(key, output)]))), true) := by
  have hz : expected - recorded.length - 1 = 0 := by omega
  simp only [record, recordSuccess, waiting, resolved, hz, if_true, Table.sorted_append_singleton]

/-- The first failure. -/
theorem record_error (expected : Nat) (recorded : Outputs) (failure : MergeFailure) :
    (waiting expected recorded).record failure.key (.error failure.reason) =
      (resolved expected (expected - recorded.length) (.failed failure), true) := rfl

/-! ### Any number of records -/

theorem after_append (tracker : Tracker) (entries more : List Entry) :
    tracker.after (entries ++ more) = (tracker.after entries).after more :=
  List.foldl_append

theorem answers_append (tracker : Tracker) (entries more : List Entry) :
    tracker.answers (entries ++ more) =
      tracker.answers entries ++ (tracker.after entries).answers more := by
  induction entries generalizing tracker with
  | nil => rfl
  | cons entry entries ih =>
    rw [List.cons_append, answers, answers, ih]
    rfl

@[simp] theorem after_singleton (tracker : Tracker) (key : String)
    (result : Except String ByteArray) :
    tracker.after [(key, result)] = (tracker.record key result).1 := rfl

@[simp] theorem answers_singleton (tracker : Tracker) (key : String)
    (result : Except String ByteArray) :
    tracker.answers [(key, result)] = [(tracker.record key result).2] := rfl

@[simp] theorem outcome_resolved (expected remaining : Nat) (outcome : Outcome) :
    (resolved expected remaining outcome).outcome = some outcome := rfl

/-- Entries that come after the outcome are ignored. -/
theorem after_of_outcome {outcome : Outcome} (h : tracker.outcome = some outcome)
    (entries : List Entry) :
    tracker.after entries = tracker ∧
      tracker.answers entries = List.replicate entries.length false := by
  induction entries with
  | nil => exact ⟨rfl, rfl⟩
  | cons entry entries ih =>
    obtain ⟨key, result⟩ := entry
    have hr := record_of_outcome h key result
    constructor
    · rw [after, List.foldl_cons]
      simp only [hr]
      exact ih.1
    · simp only [answers, hr, ih.2, List.length_cons, List.replicate_succ]

/-- Once entries have brought an outcome, those behind them change nothing. -/
theorem after_append_of_outcome {entries : List Entry} {outcome : Outcome}
    (h : (tracker.after entries).outcome = some outcome) (later : List Entry) :
    tracker.after (entries ++ later) = tracker.after entries ∧
      tracker.answers (entries ++ later) =
        tracker.answers entries ++ List.replicate later.length false := by
  obtain ⟨ha, hs⟩ := after_of_outcome h later
  exact ⟨(after_append ..).trans ha, by rw [answers_append, hs]⟩

/-- A tracker that waits for anything starts without outputs. -/
theorem ofExpected_of_pos (h : 0 < expected) : ofExpected expected = waiting expected [] := by
  have hz : expected ≠ 0 := Nat.ne_of_gt h
  simp [ofExpected, waiting, hz, Table.sorted]

/-- Successes that are not all that are waited for. -/
theorem after_successes_of_lt (h : recorded.length < expected) :
    (ofExpected expected).after (successes recorded) = waiting expected recorded ∧
      (ofExpected expected).answers (successes recorded) =
        List.replicate recorded.length true := by
  -- The last success is taken off, since the tracker is known by those before it.
  induction recorded using List.reverseRecOn with
  | nil => exact ⟨ofExpected_of_pos h, rfl⟩
  | append_singleton recorded entry ih =>
    obtain ⟨key, output⟩ := entry
    rw [List.length_append, List.length_singleton] at h
    obtain ⟨ha, hs⟩ := ih (Nat.lt_of_succ_lt h)
    have hr := record_ok_of_lt h key output
    have he : successes (recorded ++ [(key, output)]) = successes recorded ++ [(key, .ok output)] :=
      List.map_append
    constructor
    · rw [he, after_append, ha, after_singleton, hr]
    · rw [he, answers_append, hs, ha, answers_singleton, hr, List.length_append,
        List.length_singleton, List.replicate_succ']

/-- All successes that are waited for. -/
theorem after_successes (recorded : Outputs) :
    (ofExpected recorded.length).after (successes recorded) =
        resolved recorded.length 0 (.complete (Table.sorted recorded)) ∧
      (ofExpected recorded.length).answers (successes recorded) =
        List.replicate recorded.length true := by
  cases recorded using List.reverseRecOn with
  | nil => exact ⟨rfl, rfl⟩
  | append_singleton recorded entry =>
    obtain ⟨key, output⟩ := entry
    rw [List.length_append, List.length_singleton]
    obtain ⟨ha, hs⟩ := after_successes_of_lt (Nat.lt_succ_self recorded.length)
    have hr := record_ok_of_eq (rfl : recorded.length + 1 = recorded.length + 1) key output
    have he : successes (recorded ++ [(key, output)]) = successes recorded ++ [(key, .ok output)] :=
      List.map_append
    constructor
    · rw [he, after_append, ha, after_singleton, hr]
    · rw [he, answers_append, hs, ha, answers_singleton, hr, List.replicate_succ']

/-- Successes that are not all that are waited for, and then a failure. -/
theorem after_failure (h : recorded.length < expected) (failure : MergeFailure) :
    (ofExpected expected).after (successes recorded ++ [failureEntry failure]) =
        resolved expected (expected - recorded.length) (.failed failure) ∧
      (ofExpected expected).answers (successes recorded ++ [failureEntry failure]) =
        List.replicate (recorded.length + 1) true := by
  obtain ⟨ha, hs⟩ := after_successes_of_lt h
  have hr := record_error expected recorded failure
  constructor
  · rw [after_append, ha, failureEntry, after_singleton, hr]
  · rw [answers_append, hs, ha, failureEntry, answers_singleton, hr, List.replicate_succ']

end Tracker

/-! ### What a tracker shows -/

/-- What an outcome gives those who wait. -/
def Outcome.result : Outcome → Except MergeFailure Outputs
  | .complete outputs => .ok outputs
  | .failed failure => .error failure

namespace Tracker

/-- Those who wait are told to go on when, and only when, there is an outcome. -/
def Consistent (tracker : Tracker) : Prop := tracker.isResolved = tracker.outcome.isSome

/-- Whoever waits for a consistent tracker is given its outcome, and nothing before there is one. -/
theorem Consistent.wait?_eq {tracker : Tracker} (h : tracker.Consistent) :
    tracker.wait? = tracker.outcome.map Outcome.result := by
  rw [wait?, h, result]
  cases tracker.outcome with
  | none => rfl
  | some outcome => cases outcome <;> rfl

/-- A tracker is pending: after a number of successes it waits for the others, and each success
has counted. -/
structure Pending (expected : Nat) (recorded : Outputs) (tracker : Tracker)
    (answers : List Bool) : Prop where
  answers : answers = List.replicate recorded.length true
  /-- There is something to wait for. -/
  status : ∃ remaining, 0 < remaining ∧ recorded.length + remaining = expected ∧
    tracker.status = .pending expected remaining
  wait? : tracker.wait? = none

/-- A tracker has failed: the failure and the successes before it have counted, and nothing has
since. It holds no outputs. -/
structure Failed (recorded : Outputs) (failure : MergeFailure) (later : List Entry)
    (tracker : Tracker) (answers : List Bool) : Prop where
  answers : answers =
    List.replicate (recorded.length + 1) true ++ List.replicate later.length false
  outputs : tracker.outputs = []
  status : tracker.status = .failed failure
  wait? : tracker.wait? = some (.error failure)

/-- A tracker is complete: the successes it waited for have counted, and nothing has since. It
gives the last output under each of their keys, in byte order of the keys, and nothing else. -/
structure Complete (recorded : Outputs) (later : List Entry) (tracker : Tracker)
    (answers : List Bool) : Prop where
  answers : answers = List.replicate recorded.length true ++ List.replicate later.length false
  outputs : ∃ outputs, (Table.keys outputs).Pairwise (· < ·) ∧
    (∀ key, Table.find? key outputs = Table.find? key recorded.reverse) ∧
    tracker.status = .complete (outputs.map fun (key, output) ↦ (key, output.size)) ∧
    tracker.wait? = some (.ok outputs)

variable {expected : Nat} {recorded : Outputs}

theorem pending_waiting (h : recorded.length < expected) :
    Pending expected recorded (waiting expected recorded) (.replicate recorded.length true) where
  answers := rfl
  status := ⟨expected - recorded.length, by omega, by omega, rfl⟩
  wait? := rfl

theorem failed_resolved (expected remaining : Nat) (recorded : Outputs) (failure : MergeFailure)
    (later : List Entry) :
    Failed recorded failure later (resolved expected remaining (.failed failure))
      (.replicate (recorded.length + 1) true ++ .replicate later.length false) where
  answers := rfl
  outputs := rfl
  status := rfl
  wait? := rfl

theorem complete_resolved (expected remaining : Nat) (recorded : Outputs) (later : List Entry) :
    Complete recorded later (resolved expected remaining (.complete (Table.sorted recorded)))
      (.replicate recorded.length true ++ .replicate later.length false) where
  answers := rfl
  outputs := ⟨Table.sorted recorded, Table.pairwise_keys_sorted recorded,
    fun key ↦ Table.find?_sorted key recorded, rfl, rfl⟩

/-- A tracker for a number of merges is resolved once, as the entries say that are recorded. It is
pending after fewer successes than it waits for. The first failure among them, or else the last
success that it waits for, resolves it: entries up to that one count, no later one does, and the
tracker stays as that one leaves it, so what it shows stays, too. At any time there is an outcome
when, and only when, those who wait are told to go on, and it is what they are given. -/
theorem resolves_once (expected : Nat) (entries : List Entry) :
    let tracker := (ofExpected expected).after entries
    let answers := (ofExpected expected).answers entries
    tracker.Consistent ∧ tracker.wait? = tracker.outcome.map Outcome.result ∧
    ((∃ recorded, entries = successes recorded ∧ recorded.length < expected ∧
        Pending expected recorded tracker answers) ∨
      (∃ recorded failure later, entries = successes recorded ++ failureEntry failure :: later ∧
        recorded.length < expected ∧
        tracker = (ofExpected expected).after (successes recorded ++ [failureEntry failure]) ∧
        Failed recorded failure later tracker answers) ∨
      ∃ recorded later, entries = successes recorded ++ later ∧ recorded.length = expected ∧
        tracker = (ofExpected expected).after (successes recorded) ∧
        Complete recorded later tracker answers) := by
  intro tracker answers
  obtain ⟨recorded, rfl, hl⟩ | ⟨recorded, failure, later, rfl, hl⟩ | ⟨recorded, later, rfl, rfl⟩ :=
    entries_cases expected entries
  · obtain ⟨ha, hs⟩ := after_successes_of_lt hl
    have ht : tracker = waiting expected recorded := ha
    have hc : tracker.Consistent := by rw [ht]; rfl
    refine ⟨hc, hc.wait?_eq, .inl ⟨recorded, rfl, hl, ?_⟩⟩
    simp only [answers, ht, hs]
    exact pending_waiting hl
  · obtain ⟨ha, hs⟩ := after_failure hl failure
    have ho := outcome_resolved expected (expected - recorded.length) (.failed failure)
    rw [← ha] at ho
    obtain ⟨hk, hi⟩ := after_append_of_outcome ho later
    have he : successes recorded ++ failureEntry failure :: later =
        successes recorded ++ [failureEntry failure] ++ later := by simp
    have ht : tracker = resolved expected (expected - recorded.length) (.failed failure) := by
      simp only [tracker, he, hk, ha]
    have hc : tracker.Consistent := by rw [ht]; rfl
    refine ⟨hc, hc.wait?_eq, .inr (.inl ⟨recorded, failure, later, rfl, hl, ht.trans ha.symm, ?_⟩)⟩
    simp only [answers, ht, he, hi, hs]
    exact failed_resolved expected _ recorded failure later
  · obtain ⟨ha, hs⟩ := after_successes recorded
    have ho := outcome_resolved recorded.length 0 (.complete (Table.sorted recorded))
    rw [← ha] at ho
    obtain ⟨hk, hi⟩ := after_append_of_outcome ho later
    have ht : tracker = resolved recorded.length 0 (.complete (Table.sorted recorded)) := by
      simp only [tracker, hk, ha]
    have hc : tracker.Consistent := by rw [ht]; rfl
    refine ⟨hc, hc.wait?_eq, .inr (.inr ⟨recorded, later, rfl, rfl, ht.trans ha.symm, ?_⟩)⟩
    simp only [answers, ht, hi, hs]
    exact complete_resolved recorded.length 0 recorded later

end Tracker

end LoanClosing
