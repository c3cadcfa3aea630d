import LoanClosing.Proofs.Rules.Evaluation
import Mathlib.Data.List.Chain

/-!
# Groups in closed form

Joining from left to right without precedence means that an `or` starts anew: a group holds if some
term holds from which on nothing fails. That term is the first one or stands behind an `or`, and of
the terms after it only those that stand behind an `or` may fail.
-/

namespace LoanClosing

namespace Join

variable {a b : Bool × Join} {terms : List (Bool × Join)}

/-- A term keeps the outcome of those before it if it stands behind an `or` or is true itself. -/
abbrev Keeps (before term : Bool × Join) : Prop := before.2 ≠ .or → term.1 = true

/-- Some term behind an `or` is true, and all terms after it keep that. -/
def Restarts (terms : List (Bool × Join)) : Prop :=
  ∃ i, ∃ h : i + 1 < terms.length,
    terms[i].2 = .or ∧ terms[i + 1].1 = true ∧ List.IsChain Keeps (terms.drop (i + 1))

theorem apply_eq_true_iff (join : Join) (a b : Bool) :
    join.apply a b = true ↔ (a = true ∧ (join ≠ .or → b = true)) ∨ (join = .or ∧ b = true) := by
  cases join <;> simp [apply]

/-- The truth of the first term does not matter for what is kept after it. -/
theorem isChain_keeps_congr (h : a.2 = b.2) :
    List.IsChain Keeps (a :: terms) ↔ List.IsChain Keeps (b :: terms) := by
  cases terms with
  | nil => simp
  | cons c terms => rw [List.isChain_cons_cons, List.isChain_cons_cons, Keeps, Keeps, h]

theorem restarts_cons_cons :
    Restarts (a :: b :: terms) ↔
      (a.2 = .or ∧ b.1 = true ∧ List.IsChain Keeps (b :: terms)) ∨ Restarts (b :: terms) := by
  rw [Restarts, ← Nat.or_exists_add_one]
  simp [Restarts]

theorem restarts_congr (h : a.2 = b.2) : Restarts (a :: terms) ↔ Restarts (b :: terms) := by
  cases terms with
  | nil => simp [Restarts]
  | cons c terms => rw [restarts_cons_cons, restarts_cons_cons, h]

/-- The outcome of terms joined to an outcome: it is kept, or some term restarts it. -/
theorem foldFrom_eq_true_iff (outcome : Bool) (join : Join) (terms : List (Bool × Join)) :
    foldFrom outcome join terms = true ↔
      (outcome = true ∧ List.IsChain Keeps ((outcome, join) :: terms)) ∨
        Restarts ((outcome, join) :: terms) := by
  induction terms generalizing outcome join with
  | nil => simp [foldFrom, Restarts]
  | cons term terms ih =>
    obtain ⟨next, join'⟩ := term
    have hkeeps : List.IsChain Keeps ((join.apply outcome next, join') :: terms) ↔
        List.IsChain Keeps ((next, join') :: terms) := isChain_keeps_congr rfl
    have hrestarts : Restarts ((join.apply outcome next, join') :: terms) ↔
        Restarts ((next, join') :: terms) := restarts_congr rfl
    rw [foldFrom, ih, hkeeps, hrestarts, apply_eq_true_iff, restarts_cons_cons,
      List.isChain_cons_cons, Keeps]
    tauto

theorem isChain_keeps_drop {i : Nat} :
    List.IsChain Keeps (terms.drop i) ↔
      ∀ k, i ≤ k → ∀ h : k + 1 < terms.length, terms[k].2 ≠ .or → terms[k + 1].1 = true := by
  rw [List.isChain_iff_getElem]
  constructor
  · intro h k hk hl
    obtain ⟨n, rfl⟩ := Nat.exists_eq_add_of_le hk
    have hn := h n (by rw [List.length_drop]; omega)
    rwa [List.getElem_drop, List.getElem_drop] at hn
  · intro h n hn
    rw [List.length_drop] at hn
    rw [List.getElem_drop, List.getElem_drop]
    exact h (i + n) (by omega) (by omega)

/-- Terms hold in closed form if there are none, or if one that comes first or behind an `or` holds
and so does every term after it that does not stand behind an `or`. -/
def ClosedForm (terms : List (Prop × Join)) : Prop :=
  terms = [] ∨ ∃ i, ∃ h : i < terms.length,
    terms[i].1 ∧ (i = 0 ∨ terms[i - 1].2 = .or) ∧
      ∀ k, i ≤ k → ∀ h : k + 1 < terms.length, terms[k].2 ≠ .or → terms[k + 1].1

/-- Joined from left to right, terms come out true exactly if they hold in closed form. -/
theorem fold_eq_true_iff (terms : List (Bool × Join)) :
    fold terms = true ↔ ClosedForm (terms.map fun term ↦ (term.1 = true, term.2)) := by
  have hclosed : ClosedForm (terms.map fun term ↦ (term.1 = true, term.2)) ↔
      terms = [] ∨ ∃ i, ∃ h : i < terms.length, terms[i].1 = true ∧
        (i = 0 ∨ terms[i - 1].2 = .or) ∧ List.IsChain Keeps (terms.drop i) := by
    simp [ClosedForm, isChain_keeps_drop]
  rw [hclosed]
  cases terms with
  | nil => simp [fold]
  | cons term terms =>
    obtain ⟨first, join⟩ := term
    rw [fold, foldFrom_eq_true_iff, ← Nat.or_exists_add_one]
    simp [Restarts, and_left_comm]

-- There is no precedence: `true or true and false` is `(true or true) and false`.
example : fold [(true, .or), (true, .and), (false, .and)] = false := rfl

theorem fold_eq_foldFrom (terms : List (Bool × Join)) : fold terms = foldFrom true .and terms := by
  cases terms <;> rfl

/-- A join matters only if a term comes behind it, and only for how it joins. -/
theorem foldFrom_join_congr {join join' : Join} {after : List (Bool × Join)}
    (h : after = [] ∨ join.apply = join'.apply) (outcome term : Bool) (first : Join)
    (before : List (Bool × Join)) :
    foldFrom outcome first (before ++ (term, join) :: after) =
      foldFrom outcome first (before ++ (term, join') :: after) := by
  induction before generalizing outcome first with
  | nil =>
    cases after with
    | nil => rfl
    | cons next after =>
      have hjoin : join.apply = join'.apply := h.resolve_left nofun
      simp only [List.nil_append, foldFrom, hjoin]
  | cons next before ih => exact ih _ _

end Join

namespace RuleNode

theorem outcomes_eq_map (context : Context) (terms : RuleGroup) :
    outcomes context terms = terms.map fun term ↦ (holds context term.1, term.2) := by
  induction terms with
  | nil => rfl
  | cons term terms ih => rw [outcomes, ih, List.map_cons]

mutual

/-- Whether a part of a condition is satisfied, in closed form. -/
def Satisfied (context : Context) : RuleNode → Prop
  | .leaf requirement => requirement.holds context = true
  | .group terms => Join.ClosedForm (truths context terms)

/-- What it means that each term is satisfied. -/
def truths (context : Context) : RuleGroup → List (Prop × Join)
  | [] => []
  | (node, join) :: terms => (Satisfied context node, join) :: truths context terms

end

theorem truths_eq_map (context : Context) (terms : RuleGroup) :
    truths context terms = terms.map fun term ↦ (Satisfied context term.1, term.2) := by
  induction terms with
  | nil => rfl
  | cons term terms ih => rw [truths, ih, List.map_cons]

theorem satisfied_group (context : Context) (terms : RuleGroup) :
    Satisfied context (.group terms) ↔ terms = [] ∨ ∃ i, ∃ h : i < terms.length,
      Satisfied context terms[i].1 ∧ (i = 0 ∨ terms[i - 1].2 = .or) ∧
        ∀ k, i ≤ k → ∀ h : k + 1 < terms.length,
          terms[k].2 ≠ .or → Satisfied context terms[k + 1].1 := by
  rw [Satisfied, truths_eq_map]
  simp [Join.ClosedForm]

mutual

theorem holds_eq_true_iff (context : Context) (node : RuleNode) :
    holds context node = true ↔ Satisfied context node := by
  cases node with
  | leaf requirement => rw [holds, Satisfied]
  | group terms => rw [holds, Satisfied, Join.fold_eq_true_iff, map_outcomes]

theorem map_outcomes (context : Context) (terms : RuleGroup) :
    (outcomes context terms).map (fun term ↦ (term.1 = true, term.2)) = truths context terms := by
  match terms with
  | [] => rfl
  | (node, join) :: terms =>
    rw [outcomes, truths, List.map_cons, map_outcomes, propext (holds_eq_true_iff context node)]

end

/-- The evaluation of a group gives true exactly if its terms are satisfied in the closed form,
where a requirement is satisfied if its own evaluation gives true, and a group inside by its own
terms. The join of the last term never matters, and an unknown join is an `and`. -/
theorem evaluateGroup_closedForm (context : Context) (rule : String) (tracer : Tracer) :
    (∀ terms : RuleGroup, (evaluateGroup context rule tracer terms).1 = true ↔
      terms = [] ∨ ∃ i, ∃ h : i < terms.length,
        Satisfied context terms[i].1 ∧ (i = 0 ∨ terms[i - 1].2 = .or) ∧
          ∀ k, i ≤ k → ∀ h : k + 1 < terms.length,
            terms[k].2 ≠ .or → Satisfied context terms[k + 1].1) ∧
    (∀ terms, Satisfied context (.group terms) ↔
      (evaluateGroup context rule tracer terms).1 = true) ∧
    (∀ requirement, Satisfied context (.leaf requirement) ↔
      (requirement.evaluate context rule tracer).1 = true) ∧
    (∀ before node join join',
      (evaluateGroup context rule tracer (before ++ [(node, join)])).1 =
        (evaluateGroup context rule tracer (before ++ [(node, join')])).1) ∧
    ∀ before node after,
      (evaluateGroup context rule tracer (before ++ (node, .unknown) :: after)).1 =
        (evaluateGroup context rule tracer (before ++ (node, .and) :: after)).1 := by
  have hgroup (terms : RuleGroup) : Satisfied context (.group terms) ↔
      (evaluateGroup context rule tracer terms).1 = true := by
    rw [← holds_eq_true_iff, evaluateGroup_eq, holds]
  have hjoin {join join' : Join} {after : RuleGroup} (h : after = [] ∨ join.apply = join'.apply)
      (before : RuleGroup) (node : RuleNode) :
      (evaluateGroup context rule tracer (before ++ (node, join) :: after)).1 =
        (evaluateGroup context rule tracer (before ++ (node, join') :: after)).1 := by
    simp only [evaluateGroup_eq, outcomes_eq_map, List.map_append, List.map_cons,
      Join.fold_eq_foldFrom]
    exact Join.foldFrom_join_congr (h.imp_left fun ha ↦ by rw [ha, List.map_nil]) _ _ _ _
  have hunknown : Join.unknown.apply = Join.and.apply := rfl
  refine ⟨fun terms ↦ ?_, hgroup, fun requirement ↦ ?_, fun before node join join' ↦ ?_,
    fun before node after ↦ ?_⟩
  · rw [← hgroup, satisfied_group]
  · rw [requirement.evaluate_eq, Satisfied]
  · exact hjoin (.inl rfl) before node
  · exact hjoin (.inr hunknown) before node

end RuleNode

end LoanClosing
