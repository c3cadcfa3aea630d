/-!
# Tables

Lists of entries under text keys. A table keeps the order in which keys were first put, or the byte
order of its keys, depending on the operation that fills it; looking up finds the first entry.
-/

namespace LoanClosing.Table

variable {α : Type}

/-- The value of the first entry under a key. -/
def find? (key : String) : List (String × α) → Option α
  | [] => none
  | (k, value) :: entries => if k = key then some value else find? key entries

/-- Puts a value under a key: in place of its first entry, else at the end. -/
def put (key : String) (value : α) : List (String × α) → List (String × α)
  | [] => [(key, value)]
  | (k, old) :: entries =>
    if k = key then (key, value) :: entries else (k, old) :: put key value entries

/-- Puts a value under a key in a table in byte order of its keys. -/
def putSorted (key : String) (value : α) : List (String × α) → List (String × α)
  | [] => [(key, value)]
  | (k, old) :: entries =>
    if k = key then (key, value) :: entries
    else if key < k then (key, value) :: (k, old) :: entries
    else (k, old) :: putSorted key value entries

/-- The table in byte order with the last value of every key. -/
def sorted (entries : List (String × α)) : List (String × α) :=
  entries.foldl (fun table (key, value) ↦ putSorted key value table) []

/-- The value of the first entry whose key passes a test. -/
def findWhere? (test : String → Bool) : List (String × α) → Option α
  | [] => none
  | (k, value) :: entries => if test k then some value else findWhere? test entries

/-- The keys, in order. -/
def keys (entries : List (String × α)) : List String := entries.map Prod.fst

/-- After a value is put under a key, that key has it. -/
@[simp] theorem find?_put_self (key : String) (value : α) (entries : List (String × α)) :
    find? key (put key value entries) = some value := by
  induction entries with
  | nil => simp [put, find?]
  | cons entry entries ih =>
    obtain ⟨k, old⟩ := entry
    by_cases h : k = key <;> simp [put, find?, h, ih]

/-- Putting a value under a key leaves all other keys as they were. -/
theorem find?_put_of_ne {key other : String} (h : other ≠ key) (value : α)
    (entries : List (String × α)) : find? other (put key value entries) = find? other entries := by
  induction entries with
  | nil => simp [put, find?, h.symm]
  | cons entry entries ih =>
    obtain ⟨k, old⟩ := entry
    by_cases hk : k = key
    · subst hk; simp [put, find?, h.symm]
    · simp only [put, hk, if_false, find?, ih]

/-- Putting the value under a key that it has changes nothing. -/
theorem put_of_find? {key : String} {value : α} {entries : List (String × α)}
    (h : find? key entries = some value) : put key value entries = entries := by
  induction entries with
  | nil => exact absurd h nofun
  | cons entry entries ih =>
    obtain ⟨k, old⟩ := entry
    rw [find?] at h
    rw [put]
    split
    · next hk =>
      rw [if_pos hk, Option.some.injEq] at h
      rw [hk, h]
    · next hk =>
      rw [if_neg hk] at h
      rw [ih h]

/-- Putting a value appends a key that was not there and else keeps all keys in place. -/
theorem keys_put (key : String) (value : α) (entries : List (String × α)) :
    keys (put key value entries) =
      if key ∈ keys entries then keys entries else keys entries ++ [key] := by
  induction entries with
  | nil => simp [put, keys]
  | cons entry entries ih =>
    obtain ⟨k, old⟩ := entry
    simp only [keys] at ih ⊢
    by_cases hk : k = key
    · subst hk; simp [put]
    · simp only [put, hk, if_false, List.map_cons, List.mem_cons, ih]
      by_cases hm : key ∈ entries.map Prod.fst <;> simp [hm, Ne.symm hk]

/-- Putting a value leaves the keys that were there in front. -/
theorem keys_prefix_put (key : String) (value : α) (entries : List (String × α)) :
    keys entries <+: keys (put key value entries) := by
  rw [keys_put]
  split
  · exact List.prefix_rfl
  · exact List.prefix_append _ _

/-- After a value is put under a key of a table in byte order, that key has it. -/
@[simp] theorem find?_putSorted_self (key : String) (value : α) (entries : List (String × α)) :
    find? key (putSorted key value entries) = some value := by
  induction entries with
  | nil => simp [putSorted, find?]
  | cons entry entries ih =>
    obtain ⟨k, old⟩ := entry
    by_cases h : k = key
    · simp [putSorted, find?, h]
    · by_cases hlt : key < k <;> simp [putSorted, find?, h, hlt, ih]

/-- Putting a value into a table in byte order leaves all other keys as they were. -/
theorem find?_putSorted_of_ne {key other : String} (h : other ≠ key) (value : α)
    (entries : List (String × α)) :
    find? other (putSorted key value entries) = find? other entries := by
  induction entries with
  | nil => simp [putSorted, find?, h.symm]
  | cons entry entries ih =>
    obtain ⟨k, old⟩ := entry
    by_cases hk : k = key
    · subst hk; simp [putSorted, find?, h.symm]
    · by_cases hlt : key < k
      · simp [putSorted, find?, hk, hlt, h.symm]
      · simp only [putSorted, hk, hlt, if_false, find?, ih]

/-- The keys after a value is put into a table in byte order. -/
theorem mem_keys_putSorted {key other : String} {value : α} {entries : List (String × α)}
    (h : other ∈ keys (putSorted key value entries)) : other = key ∨ other ∈ keys entries := by
  induction entries with
  | nil => simpa [putSorted, keys] using h
  | cons entry entries ih =>
    obtain ⟨k, old⟩ := entry
    simp only [keys, putSorted, List.map_cons, List.mem_cons] at h ih ⊢
    split at h
    · next hk => subst hk; simpa using h
    · split at h
      · simpa using h
      · simp only [List.map_cons, List.mem_cons] at h
        cases h with
        | inl h => exact .inr (.inl h)
        | inr h => exact (ih h).imp_right .inr

/-- A table in byte order stays in byte order. -/
theorem pairwise_keys_putSorted (key : String) (value : α) {entries : List (String × α)}
    (h : (keys entries).Pairwise (· < ·)) :
    (keys (putSorted key value entries)).Pairwise (· < ·) := by
  induction entries with
  | nil => simp [putSorted, keys]
  | cons entry entries ih =>
    obtain ⟨k, old⟩ := entry
    have ⟨hk, hs⟩ : (∀ other ∈ keys entries, k < other) ∧ (keys entries).Pairwise (· < ·) :=
      List.pairwise_cons.mp h
    rw [putSorted]
    split
    · next he => exact he ▸ h
    · next he =>
      split
      · next hlt =>
        refine List.pairwise_cons.mpr ⟨fun other ho ↦ ?_, h⟩
        cases List.mem_cons.mp ho with
        | inl ho => exact ho ▸ hlt
        | inr ho => exact String.lt_trans hlt (hk other ho)
      · next hlt =>
        have hgt : k < key := by grind
        refine List.pairwise_cons.mpr ⟨fun other ho ↦ ?_, ih hs⟩
        cases mem_keys_putSorted ho with
        | inl ho => exact ho ▸ hgt
        | inr ho => exact hk other ho

/-- One more entry for the table in byte order. -/
theorem sorted_append_singleton (entries : List (String × α)) (key : String) (value : α) :
    sorted (entries ++ [(key, value)]) = putSorted key value (sorted entries) := by
  simp [sorted]

/-- In the table in byte order, each key has the value that comes last under it. -/
theorem find?_sorted (key : String) (entries : List (String × α)) :
    find? key (sorted entries) = find? key entries.reverse := by
  rw [← List.reverse_reverse entries]
  induction entries.reverse with
  | nil => rfl
  | cons entry entries ih =>
    obtain ⟨k, value⟩ := entry
    rw [List.reverse_cons, sorted_append_singleton, List.reverse_append]
    by_cases h : k = key
    · subst h; simp [find?]
    · simpa [find?_putSorted_of_ne (Ne.symm h), find?, h] using ih

/-- The table in byte order is in byte order, so it has each key once. -/
theorem pairwise_keys_sorted (entries : List (String × α)) :
    (keys (sorted entries)).Pairwise (· < ·) := by
  rw [← List.reverse_reverse entries]
  induction entries.reverse with
  | nil => exact .nil
  | cons entry entries ih =>
    rw [List.reverse_cons, sorted_append_singleton]
    exact pairwise_keys_putSorted _ _ ih

end LoanClosing.Table
