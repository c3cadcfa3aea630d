import LoanClosing.Text.Ascii
import LoanClosing.Text.Bytes
import Mathlib.Data.List.Infix

/-!
# Parts of a text

What is cut out of a text from one byte up to another, and the pieces between its separators, stand
in it as they are. Searching one text in another finds out whether it stands there.
-/

namespace LoanClosing.Text

variable {first last : Nat} {cs piece : List Char}

/-- Behind the last byte nothing is taken any more. -/
theorem bytesFrom_of_le {place : Nat} (h : last ≤ place) (cs : List Char) :
    bytesFrom place first last cs = [] := by
  induction cs generalizing place with
  | nil => rfl
  | cons c cs ih =>
    rw [bytesFrom]
    simp only [Nat.not_lt.2 h, decide_false, Bool.and_false, Bool.false_eq_true, if_false]
    exact ih (Nat.le_trans h (Nat.le_add_right _ _))

/-- What is cut out from the first byte on is a beginning. -/
theorem bytesFrom_isPrefix {place : Nat} (h : first ≤ place) (cs : List Char) :
    bytesFrom place first last cs <+: cs := by
  induction cs generalizing place with
  | nil => exact List.prefix_rfl
  | cons c cs ih =>
    have hnext : first ≤ place + c.utf8Size := Nat.le_trans h (Nat.le_add_right _ _)
    rw [bytesFrom]
    by_cases hl : place < last
    · simp only [h, hl, decide_true, Bool.and_self, if_true]
      exact List.cons_prefix_cons.2 ⟨rfl, ih hnext⟩
    · simp only [hl, decide_false, Bool.and_false, Bool.false_eq_true, if_false]
      rw [bytesFrom_of_le (by omega)]
      exact List.nil_prefix

/-- What is cut out of a text stands in it. -/
theorem byteSlice_infix (cs : List Char) (first last : Nat) : byteSlice cs first last <:+: cs := by
  have hfrom (place : Nat) : bytesFrom place first last cs <:+: cs := by
    induction cs generalizing place with
    | nil => exact List.infix_rfl
    | cons c cs ih =>
      by_cases h : first ≤ place
      · exact (bytesFrom_isPrefix h (c :: cs)).isInfix
      · rw [bytesFrom]
        simp only [h, decide_false, Bool.false_and, Bool.false_eq_true, if_false]
        exact List.infix_cons (ih _)
  exact hfrom 0

/-- The first piece is a beginning of the text, and the others stand in it. -/
theorem infix_of_splitAt {separator : Char} {pieces : List (List Char)}
    (h : splitAt separator cs = piece :: pieces) :
    piece <+: cs ∧ ∀ other ∈ pieces, other <:+: cs := by
  induction cs generalizing piece pieces with
  | nil =>
    rw [splitAt] at h
    obtain ⟨rfl, rfl⟩ := List.cons.inj h
    exact ⟨List.nil_prefix, List.forall_mem_nil _⟩
  | cons c cs ih =>
    cases hs : splitAt separator cs with
    | nil => exact absurd hs (splitAt_ne_nil separator cs)
    | cons next more =>
      obtain ⟨hp, hi⟩ := ih hs
      rw [splitAt, hs] at h
      by_cases hc : c == separator
      · rw [if_pos hc] at h
        obtain ⟨rfl, rfl⟩ := List.cons.inj h
        refine ⟨List.nil_prefix, ?_⟩
        rw [List.forall_mem_cons]
        exact ⟨List.infix_cons hp.isInfix, fun other ho ↦ List.infix_cons (hi other ho)⟩
      · rw [if_neg hc] at h
        obtain ⟨rfl, rfl⟩ := List.cons.inj h
        exact ⟨List.cons_prefix_cons.2 ⟨rfl, hp⟩, fun other ho ↦ List.infix_cons (hi other ho)⟩

/-- The pieces of a text stand in it. -/
theorem infix_of_mem_splitAt {separator : Char} (h : piece ∈ splitAt separator cs) :
    piece <:+: cs := by
  cases hs : splitAt separator cs with
  | nil => exact absurd hs (splitAt_ne_nil separator cs)
  | cons next more =>
    obtain ⟨hp, hi⟩ := infix_of_splitAt hs
    rw [hs] at h
    rcases List.mem_cons.1 h with rfl | h
    · exact hp.isInfix
    · exact hi piece h

/-- Searching a text in another one finds out whether it stands there. -/
theorem occursIn_iff_infix : occursIn piece cs = true ↔ piece <:+: cs := by
  induction cs with
  | nil => rw [occursIn, List.isEmpty_iff, List.infix_nil]
  | cons c cs ih =>
    rw [occursIn, Bool.or_eq_true, ih, List.isPrefixOf_iff_prefix, List.infix_cons_iff]

end LoanClosing.Text
