import LoanClosing.Proofs.Model.Texts
import LoanClosing.Proofs.Rules.Distinct
import LoanClosing.Rules.Context
import Mathlib.Data.Finset.Card

/-!
# Contexts and the history of their insertions

What a context shows is told by the history of its insertions. Each key has the value that was
inserted last under it, and the keys stand in the order of their first insertions, which a later
insertion under the same key does not change. So a key that was never inserted as it is leads to the
key that was inserted first among those that are the same up to blanks and case.
-/

namespace LoanClosing

namespace Table

variable {α : Type}

/-- The first entry whose key passes a test is the first one under the first key that does. -/
theorem findWhere?_eq_bind (test : String → Bool) (entries : List (String × α)) :
    findWhere? test entries = ((keys entries).find? test).bind (find? · entries) := by
  induction entries with
  | nil => rfl
  | cons entry entries ih =>
    obtain ⟨k, value⟩ := entry
    rw [findWhere?, keys, List.map_cons, List.find?_cons]
    cases ht : test k with
    | true => simp [find?]
    | false =>
      rw [if_neg (by decide), ih]
      cases hf : (keys entries).find? test with
      | none =>
        rw [keys] at hf
        rw [hf]
        rfl
      | some key =>
        have hne : k ≠ key := by
          rintro rfl
          rw [List.find?_some hf] at ht
          cases ht
        rw [keys] at hf
        rw [hf, Option.bind_some, Option.bind_some, find?, if_neg hne]

/-- Where no key is there twice, the entries are what is found under their keys. -/
theorem mem_iff_find?_eq_some {entries : List (String × α)} (h : (keys entries).Nodup)
    {key : String} {value : α} : (key, value) ∈ entries ↔ find? key entries = some value := by
  induction entries with
  | nil => simp [find?]
  | cons entry entries ih =>
    obtain ⟨k, old⟩ := entry
    rw [keys, List.map_cons, List.nodup_cons] at h
    rw [List.mem_cons, find?, Prod.mk.injEq, ih h.2]
    by_cases hk : k = key
    · subst hk
      have hno : find? k entries ≠ some value := fun hf ↦ h.1 (mem_keys_of_find? hf)
      simp [hno, eq_comm]
    · simp [hk, Ne.symm hk]

end Table

/-- The first that passes a test among first occurrences is the first among all. -/
theorem find?_eraseDups (test : String → Bool) (ids : List String) :
    ids.eraseDups.find? test = ids.find? test := by
  induction ids using List.reverseRecOn with
  | nil => rfl
  | append_singleton ids id ih =>
    rw [eraseDups_concat, List.find?_append, ← ih]
    by_cases h : id ∈ ids
    · rw [if_pos h]
      cases hf : ids.eraseDups.find? test with
      | some other => rfl
      | none =>
        have ht : test id ≠ true := List.find?_eq_none.1 hf id (List.mem_eraseDups.2 h)
        simp [ht]
    · rw [if_neg h, List.find?_append]

namespace Context

/-- The value that was inserted last under a key. -/
def lastInserted? (inserts : List (String × String)) (key : String) : Option String :=
  Table.find? key inserts.reverse

variable {inserts : List (String × String)} {key value : String}

/-! ### One more insertion -/

theorem ofList_concat (inserts : List (String × String)) (key value : String) :
    ofList (inserts ++ [(key, value)]) = (ofList inserts).insert key value := by
  rw [ofList, List.foldl_append]
  rfl

theorem lastInserted?_concat (inserts : List (String × String)) (key value other : String) :
    lastInserted? (inserts ++ [(key, value)]) other =
      if other = key then some value else lastInserted? inserts other := by
  rw [lastInserted?, List.reverse_append, List.reverse_singleton, List.singleton_append,
    Table.find?]
  by_cases h : other = key
  · rw [if_pos h.symm, if_pos h]
  · rw [if_neg (Ne.symm h), if_neg h, lastInserted?]

/-! ### Any number of insertions -/

/-- The keys stand in the order of their first insertions. -/
theorem keys_ofList (inserts : List (String × String)) :
    Table.keys (ofList inserts).entries = (inserts.map Prod.fst).eraseDups := by
  induction inserts using List.reverseRecOn with
  | nil => rfl
  | append_singleton inserts insert ih =>
    obtain ⟨key, value⟩ := insert
    rw [ofList_concat, Context.insert, Table.keys_put, ih, List.map_append, List.map_singleton,
      eraseDups_concat]
    simp only [List.mem_eraseDups]

/-- Each key has the value that was inserted last under it. -/
theorem find?_ofList (inserts : List (String × String)) (key : String) :
    Table.find? key (ofList inserts).entries = lastInserted? inserts key := by
  induction inserts using List.reverseRecOn with
  | nil => rfl
  | append_singleton inserts insert ih =>
    obtain ⟨other, value⟩ := insert
    rw [ofList_concat, Context.insert, lastInserted?_concat]
    by_cases h : key = other
    · rw [if_pos h, h, Table.find?_put_self]
    · rw [if_neg h, Table.find?_put_of_ne h, ih]

theorem mem_entries_ofList :
    (key, value) ∈ (ofList inserts).entries ↔ lastInserted? inserts key = some value := by
  rw [Table.mem_iff_find?_eq_some, find?_ofList]
  rw [keys_ofList]
  exact nodup_eraseDups _

/-- The number of keys is that of the different keys under which anything was inserted. -/
theorem size_ofList (inserts : List (String × String)) :
    (ofList inserts).size = (inserts.map Prod.fst).toFinset.card := by
  have hset : (inserts.map Prod.fst).eraseDups.toFinset = (inserts.map Prod.fst).toFinset := by
    ext key
    rw [List.mem_toFinset, List.mem_toFinset, List.mem_eraseDups]
  rw [← hset, List.toFinset_card_of_nodup (nodup_eraseDups _), ← keys_ofList, size, Table.keys,
    List.length_map]

theorem get?_ofList (inserts : List (String × String)) (key : String) :
    (ofList inserts).get? key =
      (lastInserted? inserts key).or
        (((inserts.map Prod.fst).find? (sameKey · key)).bind (lastInserted? inserts)) := by
  have hfind : (Table.find? · (ofList inserts).entries) = lastInserted? inserts :=
    funext (find?_ofList inserts)
  rw [get?, find?_ofList, Table.findWhere?_eq_bind, keys_ofList, find?_eraseDups, hfind]

/-- What a context shows after any insertions. A key has the value that was inserted last under it;
a key under which nothing was inserted has the last value of the first key inserted among those
that are the same up to blanks around them and ASCII case, if there is one. Each different key
counts once. The entries, also those that are written, are the different keys with their last
values, and they stand in the order of the first insertions. -/
theorem ofList_shows (inserts : List (String × String)) :
    let keys := inserts.map Prod.fst
    let context := ofList inserts
    (∀ key, context.get? key =
      (lastInserted? inserts key).or
        ((keys.find? (sameKey · key)).bind (lastInserted? inserts))) ∧
    context.size = keys.toFinset.card ∧
    (∀ key value, (key, value) ∈ context.entries ↔ lastInserted? inserts key = some value) ∧
    Table.keys context.entries = keys.eraseDups ∧
    (∀ first ∈ keys, ∀ second ∈ keys,
      ((Table.keys context.entries).idxOf first < (Table.keys context.entries).idxOf second ↔
        keys.idxOf first < keys.idxOf second)) ∧
    ∃ members, context.toJson = .object members ∧ members.map Prod.fst = keys.eraseDups ∧
      ∀ key json, (key, json) ∈ members ↔
        ∃ value, json = .text value ∧ lastInserted? inserts key = some value := by
  intro keys context
  have hkeys : Table.keys context.entries = keys.eraseDups := keys_ofList inserts
  refine ⟨get?_ofList inserts, size_ofList inserts, fun _ _ ↦ mem_entries_ofList, hkeys, ?_, ?_⟩
  · intro first hf second hs
    rw [hkeys]
    exact idxOf_eraseDups_lt_iff hf hs
  · refine ⟨context.entries.map fun entry ↦ (entry.1, .text entry.2), rfl, ?_, ?_⟩
    · rw [List.map_map, ← hkeys]
      rfl
    · intro key json
      constructor
      · intro hm
        obtain ⟨⟨k, value⟩, he, hp⟩ := List.mem_map.1 hm
        obtain ⟨rfl, rfl⟩ := Prod.mk.inj hp
        exact ⟨value, rfl, mem_entries_ofList.1 he⟩
      · rintro ⟨value, rfl, hv⟩
        exact List.mem_map.2 ⟨(key, value), mem_entries_ofList.2 hv, rfl⟩

end Context

end LoanClosing
