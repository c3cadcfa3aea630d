import LoanClosing.Table
import Mathlib.Data.List.Induction
import Mathlib.Data.List.Perm.Basic

/-!
# Tables in byte order

Putting entries into a table in byte order loses none of them as long as no key is there twice, so a
table has one such form whatever the order of its entries, and one that is in byte order is left as
it is.
-/

namespace LoanClosing.Table

variable {α : Type} {key : String} {entries others : List (String × α)}

/-- Putting a value under a new key adds that entry. -/
theorem putSorted_perm (h : key ∉ keys entries) (value : α) :
    (putSorted key value entries).Perm ((key, value) :: entries) := by
  induction entries with
  | nil => exact .refl _
  | cons entry entries ih =>
    obtain ⟨other, old⟩ := entry
    simp only [keys, List.map_cons, List.mem_cons, not_or] at h ih ⊢
    rw [putSorted, if_neg (Ne.symm h.1)]
    split
    · exact .refl _
    · exact ((ih h.2).cons (other, old)).trans (.swap (key, value) (other, old) _)

/-- Putting a value under a new key adds that key. -/
theorem keys_putSorted_perm (h : key ∉ keys entries) (value : α) :
    (keys (putSorted key value entries)).Perm (key :: keys entries) :=
  (putSorted_perm h value).map Prod.fst

/-- Without a key that is there twice, the table in byte order has the entries as they are. -/
theorem sorted_perm (h : (keys entries).Nodup) : (sorted entries).Perm entries := by
  induction entries using List.reverseRecOn with
  | nil => exact .refl _
  | append_singleton entries entry ih =>
    obtain ⟨key, value⟩ := entry
    rw [keys, List.map_append, List.nodup_append] at h
    have hp := ih h.1
    have hk : key ∉ keys (sorted entries) := by
      intro hin
      exact h.2.2 key ((hp.map Prod.fst).mem_iff.mp hin) key List.mem_cons_self rfl
    rw [sorted_append_singleton]
    exact (putSorted_perm hk value).trans ((hp.cons _).trans (List.perm_append_singleton _ _).symm)

/-- Without a key that is there twice, the order of the entries does not matter. -/
theorem sorted_eq_of_perm (h : (keys entries).Nodup) (hp : entries.Perm others) :
    sorted entries = sorted others := by
  have ho : (keys others).Nodup := (hp.map Prod.fst).nodup_iff.mp h
  have hle (a b : String × α) (_ : a ∈ sorted entries) (_ : b ∈ sorted others)
      (hab : a.1 < b.1) (hba : b.1 < a.1) : a = b := absurd hba (String.lt_asymm hab)
  exact List.Perm.eq_of_pairwise hle (List.pairwise_map.mp (pairwise_keys_sorted entries))
    (List.pairwise_map.mp (pairwise_keys_sorted others))
    ((sorted_perm h).trans (hp.trans (sorted_perm ho).symm))

theorem mem_putSorted {entry : String × α} {value : α} (h : entry ∈ putSorted key value entries) :
    entry = (key, value) ∨ entry ∈ entries := by
  induction entries with
  | nil => exact .inl (List.mem_singleton.1 h)
  | cons other entries ih =>
    obtain ⟨k, old⟩ := other
    rw [putSorted] at h
    split at h
    · exact (List.mem_cons.1 h).imp_right (List.mem_cons_of_mem _)
    · split at h
      · exact List.mem_cons.1 h
      · rcases List.mem_cons.1 h with h | h
        · exact .inr (h ▸ List.mem_cons_self)
        · exact (ih h).imp_right (List.mem_cons_of_mem _)

/-- The table in byte order has no entry that was not there. -/
theorem mem_of_mem_sorted {entry : String × α} (h : entry ∈ sorted entries) : entry ∈ entries := by
  induction entries using List.reverseRecOn with
  | nil => exact h
  | append_singleton entries last ih =>
    obtain ⟨key, value⟩ := last
    rw [sorted_append_singleton] at h
    rcases mem_putSorted h with h | h
    · exact List.mem_append.2 (.inr (List.mem_singleton.2 h))
    · exact List.mem_append.2 (.inl (ih h))

/-- A table in byte order is left as it is. -/
theorem sorted_of_pairwise (h : (keys entries).Pairwise (· < ·)) : sorted entries = entries := by
  have hne (a b : String) (hlt : a < b) : a ≠ b := fun he ↦ String.lt_irrefl b (he ▸ hlt)
  have hn : (keys entries).Nodup := h.imp (hne _ _)
  have hle (a b : String × α) (_ : a ∈ sorted entries) (_ : b ∈ entries)
      (hab : a.1 < b.1) (hba : b.1 < a.1) : a = b := absurd hba (String.lt_asymm hab)
  exact List.Perm.eq_of_pairwise hle (List.pairwise_map.mp (pairwise_keys_sorted entries))
    (List.pairwise_map.mp h) (sorted_perm hn)

end LoanClosing.Table
