import LoanClosing.Proofs.Rules.Offered
import Mathlib.Data.List.Induction

/-!
# Every document once

The documents selected are the default documents and those of the rules that match, each once and in
the order in which they are offered first. Asking for lines changes none of them.
-/

namespace LoanClosing

theorem nodup_eraseDups (ids : List String) : ids.eraseDups.Nodup := by
  induction ids using List.reverseRecOn with
  | nil => exact List.nodup_nil
  | append_singleton ids id ih =>
    rw [eraseDups_concat]
    split
    · exact ih
    · next h =>
      refine List.nodup_append.2 ⟨ih, by simp, fun a ha b hb he ↦ h ?_⟩
      rw [← List.mem_singleton.1 hb, ← he]
      exact List.mem_eraseDups.1 ha

/-- A new last member comes behind all others, and those stay in order. -/
theorem idxOf_concat_lt_iff {ids : List String} {id first second : String} (h : id ∉ ids)
    (hf : first ∈ ids ++ [id]) (hs : second ∈ ids ++ [id]) :
    (ids ++ [id]).idxOf first < (ids ++ [id]).idxOf second ↔
      first ≠ id ∧ (second ∈ ids → ids.idxOf first < ids.idxOf second) := by
  have hlt {other : String} (ho : other ∈ ids) : ids.idxOf other < ids.length :=
    List.idxOf_lt_length_of_mem ho
  have hne {other : String} (ho : other ∈ ids) : other ≠ id := fun he ↦ h (he ▸ ho)
  rw [List.mem_append, List.mem_singleton] at hf hs
  rw [List.idxOf_append, List.idxOf_append]
  rcases hf with hf | rfl
  · rcases hs with hs | rfl
    · simp [hf, hs, hne hf]
    · simp [hf, h, hne hf, hlt hf]
  · rcases hs with hs | rfl
    · simp [h, hs, Nat.le_of_lt (hlt hs)]
    · simp [h]

/-- First occurrences stand in the order in which they occur first. -/
theorem idxOf_eraseDups_lt_iff {ids : List String} {first second : String} (hf : first ∈ ids)
    (hs : second ∈ ids) :
    ids.eraseDups.idxOf first < ids.eraseDups.idxOf second ↔
      ids.idxOf first < ids.idxOf second := by
  induction ids using List.reverseRecOn with
  | nil => cases hf
  | append_singleton ids id ih =>
    rw [eraseDups_concat]
    by_cases hid : id ∈ ids
    · have hmem {other : String} (h : other ∈ ids ++ [id]) : other ∈ ids := by
        rcases List.mem_append.1 h with h | h
        · exact h
        · exact List.mem_singleton.1 h ▸ hid
      rw [if_pos hid, ih (hmem hf) (hmem hs), List.idxOf_append, List.idxOf_append,
        if_pos (hmem hf), if_pos (hmem hs)]
    · have hid' : id ∉ ids.eraseDups := fun h ↦ hid (List.mem_eraseDups.1 h)
      have hmem {other : String} (h : other ∈ ids ++ [id]) : other ∈ ids.eraseDups ++ [id] := by
        simpa using h
      rw [if_neg hid, idxOf_concat_lt_iff hid hf hs,
        idxOf_concat_lt_iff hid' (hmem hf) (hmem hs), List.mem_eraseDups]
      refine and_congr_right fun hne ↦ imp_congr_right fun hs ↦ ih ?_ hs
      exact (List.mem_append.1 hf).resolve_right fun h ↦ hne (List.mem_singleton.1 h)

namespace LoanType

theorem documentIds_select_eq (trace : Bool) (loanType : LoanType) (context : Context) :
    (loanType.select trace context).documentIds = (loanType.offered context).eraseDups := by
  rw [select_eq]

/-- No document is selected twice. -/
theorem nodup_documentIds_select (trace : Bool) (loanType : LoanType) (context : Context) :
    (loanType.select trace context).documentIds.Nodup := by
  rw [documentIds_select_eq]
  exact nodup_eraseDups _

theorem mem_offered {loanType : LoanType} {context : Context} {id : String} :
    id ∈ loanType.offered context ↔ id ∈ loanType.defaultDocuments ∨
      ∃ rule ∈ loanType.rules, rule.matchesIn context = true ∧ id ∈ rule.documents := by
  simp only [offered, OutputRule.documentsOf, List.mem_append, List.mem_flatMap, List.mem_filter,
    and_assoc]

/-- The documents selected are the first occurrences in the list of the default documents and then
those of the rules that match, in the order of the rules. So none is selected twice, exactly the
default documents and those of a matching rule are selected, and they stand in the order in which
they occur first; a rule matches if it has no condition or one that evaluates to true. They are the
same with and without the trace. -/
theorem documentIds_select (trace : Bool) (loanType : LoanType) (context : Context) :
    let ids := (loanType.select trace context).documentIds
    let offered := loanType.defaultDocuments ++
      (loanType.rules.filter (OutputRule.matchesIn context)).flatMap OutputRule.documents
    ids = offered.eraseDups ∧ ids.Nodup ∧
      (∀ id, id ∈ ids ↔ id ∈ loanType.defaultDocuments ∨
        ∃ rule ∈ loanType.rules, rule.matchesIn context = true ∧ id ∈ rule.documents) ∧
      (∀ first ∈ ids, ∀ second ∈ ids,
        (ids.idxOf first < ids.idxOf second ↔ offered.idxOf first < offered.idxOf second)) ∧
      (∀ (rule : OutputRule) tracer, rule.matchesIn context = true ↔
        ∀ terms, rule.condition = some terms →
          (RuleNode.evaluateGroup context rule.name tracer terms).1 = true) ∧
      (loanType.select (!trace) context).documentIds = ids := by
  intro ids offered
  have hids : ids = offered.eraseDups := loanType.documentIds_select_eq trace context
  have hmem {id : String} : id ∈ ids ↔ id ∈ offered := by rw [hids, List.mem_eraseDups]
  refine ⟨hids, loanType.nodup_documentIds_select trace context, fun id ↦ hmem.trans mem_offered,
    fun first hf second hs ↦ ?_, fun rule tracer ↦ rule.matchesIn_eq_true_iff tracer, ?_⟩
  · rw [hids]
    exact idxOf_eraseDups_lt_iff (hmem.1 hf) (hmem.1 hs)
  · rw [hids]
    exact loanType.documentIds_select_eq (!trace) context

/-- A deed that is offered twice stands where it is offered first, in front of the rider. -/
theorem documentIds_select_deed :
    let loanType : LoanType := ⟨"Purchase", ["Note", "Deed", "Note"],
      [⟨"State rider", some [(.leaf ⟨"State", .equals, ["CA"]⟩, .and)], ["Rider", "Deed"]⟩]⟩
    let ids := (loanType.select false ⟨[("State", "CA")]⟩).documentIds
    ids = ["Note", "Deed", "Rider"] ∧ "Deed" ∈ ids ∧ "Rider" ∈ ids ∧
      ids.idxOf "Deed" < ids.idxOf "Rider" := by
  intro loanType ids
  have hdeed : "Deed" ∈ ids := by decide
  have hrider : "Rider" ∈ ids := by decide
  have horder := (documentIds_select false loanType ⟨[("State", "CA")]⟩).2.2.2.1
  exact ⟨by decide, hdeed, hrider, (horder "Deed" hdeed "Rider" hrider).2 (by decide)⟩

end LoanType

end LoanClosing
