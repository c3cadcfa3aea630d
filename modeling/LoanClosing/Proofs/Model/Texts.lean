import LoanClosing.Model.Scope
import Mathlib.Data.List.Basic

/-!
# The texts of loan data

The texts anywhere in a value: its texts, and the names and descriptions of its choices. A path
leads to no text that is not among those of the value it starts at. What stands for a value in a
document holds no opening brace, unless one of its texts does.
-/

namespace LoanClosing

namespace Value

mutual

/-- The texts in a value. -/
def texts : Value → List String
  | .text s => [s]
  | .enum choice => choice.name.toList ++ choice.description.toList
  | .list items => textsOfItems items
  | .map entries => textsOfEntries entries
  | .object members => textsOfEntries members
  | .null | .bool _ | .number _ | .date _ => []

/-- The texts in items. -/
def textsOfItems : List Value → List String
  | [] => []
  | item :: items => texts item ++ textsOfItems items

/-- The texts in the values of entries. -/
def textsOfEntries : List (String × Value) → List String
  | [] => []
  | (_, value) :: entries => texts value ++ textsOfEntries entries

end

variable {value found : Value} {key : String} {entries : List (String × Value)}

/-- The texts of an item are texts of the list. -/
theorem texts_subset_of_mem {items : List Value} (h : value ∈ items) :
    value.texts ⊆ textsOfItems items := by
  induction items with
  | nil => simp at h
  | cons item items ih =>
    rw [textsOfItems]
    rcases List.mem_cons.mp h with rfl | h
    · exact List.subset_append_left _ _
    · exact List.subset_append_of_subset_right _ (ih h)

/-- The texts of the value of an entry are texts of the entries. -/
theorem texts_subset_of_mem_entries (h : (key, value) ∈ entries) :
    value.texts ⊆ textsOfEntries entries := by
  induction entries with
  | nil => simp at h
  | cons entry entries ih =>
    obtain ⟨k, other⟩ := entry
    rw [textsOfEntries]
    rcases List.mem_cons.mp h with he | h
    · cases he
      exact List.subset_append_left _ _
    · exact List.subset_append_of_subset_right _ (ih h)

end Value

namespace Table

variable {α : Type} {value : α} {key : String} {entries : List (String × α)}

/-- A value that is found is the value of an entry. -/
theorem exists_mem_of_findWhere? {test : String → Bool} (h : findWhere? test entries = some value) :
    ∃ key, (key, value) ∈ entries := by
  induction entries with
  | nil => simp [findWhere?] at h
  | cons entry entries ih =>
    obtain ⟨k, other⟩ := entry
    rw [findWhere?] at h
    split at h
    · obtain rfl := Option.some.inj h
      exact ⟨k, List.mem_cons_self⟩
    · obtain ⟨key, hk⟩ := ih h
      exact ⟨key, List.mem_cons_of_mem _ hk⟩

/-- What is found depends only on what the test says about the keys. -/
theorem findWhere?_congr {test test' : String → Bool}
    (h : ∀ key ∈ keys entries, test key = test' key) :
    findWhere? test entries = findWhere? test' entries := by
  induction entries with
  | nil => rfl
  | cons entry entries ih =>
    obtain ⟨k, other⟩ := entry
    rw [keys, List.map_cons, List.forall_mem_cons] at h
    rw [findWhere?, findWhere?, h.1, ih h.2]

/-- Looking a key up is finding the first entry with that key. -/
theorem find?_eq_findWhere? (key : String) (entries : List (String × α)) :
    find? key entries = findWhere? (· == key) entries := by
  induction entries with
  | nil => rfl
  | cons entry entries ih =>
    obtain ⟨k, other⟩ := entry
    simp only [find?, findWhere?, beq_iff_eq, ih]

/-- A value that is found under a key is the value of an entry. -/
theorem exists_mem_of_find? (h : find? key entries = some value) :
    ∃ key, (key, value) ∈ entries := by
  rw [find?_eq_findWhere?] at h
  exact exists_mem_of_findWhere? h

/-- What is found in a table is found under one of its keys. -/
theorem mem_keys_of_find? (h : find? key entries = some value) : key ∈ keys entries := by
  induction entries with
  | nil => simp [find?] at h
  | cons entry entries ih =>
    obtain ⟨k, other⟩ := entry
    rw [find?] at h
    split at h
    · next hk => exact hk ▸ List.mem_cons_self
    · exact List.mem_cons_of_mem _ (ih h)

/-- What is not found in a table is not found in the rest of it. -/
theorem find?_eq_none_of_cons {entry : String × α} (h : find? key (entry :: entries) = none) :
    find? key entries = none := by
  obtain ⟨k, other⟩ := entry
  rw [find?] at h
  split at h
  · simp at h
  · exact h

end Table

namespace Value

variable {value found : Value} {segment : String}

/-- The texts of a value that is looked up are texts of the entries. -/
theorem texts_subset_of_lookup? {entries : List (String × Value)}
    (h : lookup? segment entries = some found) : found.texts ⊆ textsOfEntries entries := by
  rw [lookup?, Option.or_eq_some_iff] at h
  rcases h with h | ⟨-, h⟩
  · obtain ⟨key, hk⟩ := Table.exists_mem_of_find? h
    exact texts_subset_of_mem_entries hk
  · obtain ⟨key, hk⟩ := Table.exists_mem_of_findWhere? h
    exact texts_subset_of_mem_entries hk

/-- The texts of a member of a choice are texts of the choice. -/
theorem texts_subset_of_choice {choice : EnumValue} (h : choice.member? segment = some found) :
    found.texts ⊆ texts (.enum choice) := by
  rw [EnumValue.member?] at h
  split at h
  · obtain rfl := Option.some.inj h
    cases hd : choice.description <;> simp [texts, hd]
  · split at h
    · obtain rfl := Option.some.inj h
      cases hn : choice.name <;> simp [texts, hn]
    · split at h
      · obtain rfl := Option.some.inj h
        cases choice.value <;> simp [texts]
      · simp at h

/-- The texts of a member of a value are texts of the value. -/
theorem texts_subset_of_member? (h : value.member? segment = some found) :
    found.texts ⊆ value.texts := by
  cases value with
  | enum choice => exact texts_subset_of_choice h
  | map entries =>
    rw [texts]
    exact texts_subset_of_lookup? h
  | object members =>
    rw [texts]
    exact texts_subset_of_lookup? h
  | list items =>
    rw [member?] at h
    split at h
    · obtain rfl := Option.some.inj h
      simp [texts]
    · simp at h
  | null => simp [member?] at h
  | bool flag => simp [member?] at h
  | number amount => simp [member?] at h
  | text s => simp [member?] at h
  | date day => simp [member?] at h

/-- The texts at the end of a path are texts of the value it starts at. -/
theorem texts_subset_of_descend {segments : List String} (h : value.descend segments = some found) :
    found.texts ⊆ value.texts := by
  induction segments generalizing value with
  | nil =>
    obtain rfl := Option.some.inj h
    exact List.Subset.refl _
  | cons segment segments ih =>
    obtain ⟨member, hm, hd⟩ := Option.bind_eq_some_iff.mp h
    exact List.Subset.trans (ih hd) (texts_subset_of_member? hm)

end Value

namespace Scope

variable {scope : Scope} {value : Value}

/-- The texts in the data of a scope: the items of its loops and the whole loan. -/
def texts (scope : Scope) : List String :=
  Value.textsOfEntries (scope.frames ++ [(scope.rootName, scope.root)])

/-- The texts of what a path leads to are texts of the scope. -/
theorem texts_subset_of_resolve {path : String} (h : scope.resolve path = .found value) :
    value.texts ⊆ scope.texts := by
  rw [resolve] at h
  cases hs : segments path with
  | nil => simp [hs, resolveSegments] at h
  | cons head rest =>
    rw [hs, resolveSegments] at h
    split at h
    · simp at h
    · next start hb =>
      split at h
      · next last hd =>
        obtain rfl : last = value := by simpa using h
        obtain ⟨key, hk⟩ := Table.exists_mem_of_find? hb
        exact List.Subset.trans (Value.texts_subset_of_descend hd)
          (Value.texts_subset_of_mem_entries hk)
      · simp at h

/-- The texts of an item of a list that a path leads to are texts of the scope. -/
theorem texts_subset_of_mem_resolveItems {path : String} (h : value ∈ scope.resolveItems path) :
    value.texts ⊆ scope.texts := by
  rw [resolveItems] at h
  split at h
  · next items hr =>
    have ht := texts_subset_of_resolve hr
    rw [Value.texts] at ht
    exact List.Subset.trans (Value.texts_subset_of_mem h) ht
  · simp at h

/-- A path that is not in scope inside a loop is not in scope around it. -/
theorem resolve_eq_unqualified_of_withItem {path name : String} {item : Value}
    (h : (scope.withItem name item).resolve path = .unqualified) :
    scope.resolve path = .unqualified := by
  rw [resolve] at h ⊢
  cases hs : segments path with
  | nil => rfl
  | cons head rest =>
    rw [hs, resolveSegments] at h
    rw [resolveSegments]
    split at h
    · next hb =>
      have hn : scope.binding? head = none := Table.find?_eq_none_of_cons hb
      rw [hn]
    · split at h <;> simp at h

end Scope

/-! ### What stands for a value -/

/-- Numbers with zeros in front are digits. -/
theorem Text.isDigit_of_mem_padded {length n : Nat} {c : Char} (h : c ∈ padded length n) :
    c.isDigit = true := by
  rw [padded] at h
  rcases List.mem_append.mp h with h | h
  · obtain rfl := List.eq_of_mem_replicate h
    rfl
  · exact Nat.isDigit_of_mem_toDigits (by decide) (by decide) h

/-- A digit is no opening brace. -/
theorem Text.ne_openBrace_of_isDigit {c : Char} (h : c.isDigit = true) : c ≠ '\x7b' := by
  rintro rfl
  exact absurd h (by decide)

/-- The written form of a decimal holds no opening brace. -/
theorem Decimal.openBrace_notMem_text (d : Decimal) : '\x7b' ∉ d.text.toList := by
  intro h
  have hp : '\x7b' ∉ Text.padded (d.scale + 1) d.unscaled.natAbs :=
    fun hm ↦ Text.ne_openBrace_of_isDigit (Text.isDigit_of_mem_padded hm) rfl
  simp only [text, String.toList_ofList, List.append_assoc, List.mem_append] at h
  rcases h with h | h | h
  · split at h <;> simp at h
  · exact hp (List.mem_of_mem_take h)
  · split at h
    · simp at h
    · rcases List.mem_cons.mp h with h | h
      · exact absurd h (by decide)
      · exact hp (List.mem_of_mem_drop h)

/-- The written form of a number holds no opening brace. -/
theorem openBrace_notMem_nat (n : Nat) : '\x7b' ∉ (toString n).toList := by
  intro h
  have hr : (toString n).toList = Nat.toDigits 10 n := Nat.toList_repr
  rw [hr] at h
  exact Text.ne_openBrace_of_isDigit (Nat.isDigit_of_mem_toDigits (by decide) (by decide) h) rfl

/-- The written form of an integer holds no opening brace. -/
theorem openBrace_notMem_int (n : Int) : '\x7b' ∉ (toString n).toList := by
  cases n with
  | ofNat m => exact openBrace_notMem_nat m
  | negSucc m =>
    intro h
    have hr : (toString (Int.negSucc m)).toList = '-' :: (toString (m + 1)).toList := by
      change ("-" ++ Nat.repr (m + 1)).toList = _
      simp
    rw [hr] at h
    rcases List.mem_cons.mp h with h | h
    · exact absurd h (by decide)
    · exact openBrace_notMem_nat _ h

/-- The written form of a year holds no opening brace. -/
theorem Date.openBrace_notMem_yearText (year : Int) : '\x7b' ∉ (yearText year).toList := by
  intro h
  rw [yearText, String.toList_append, String.toList_ofList] at h
  rcases List.mem_append.mp h with h | h
  · split at h
    · exact absurd h (by decide)
    · split at h <;> exact absurd h (by decide)
  · exact Text.ne_openBrace_of_isDigit (Text.isDigit_of_mem_padded h) rfl

/-- The long form of a date holds no opening brace. -/
theorem Date.openBrace_notMem_text (date : Date) : '\x7b' ∉ date.text.toList := by
  have hn : ∀ name ∈ "" :: monthNames, '\x7b' ∉ name.toList := by decide
  have hm : monthNames.getD (date.month - 1) "" ∈ "" :: monthNames := by
    rw [List.getD_eq_getElem?_getD]
    cases hg : monthNames[date.month - 1]? with
    | none => exact List.mem_cons_self
    | some name => exact List.mem_cons_of_mem _ (List.mem_of_getElem? hg)
  intro h
  simp only [text, String.toList_append, List.mem_append] at h
  rcases h with (((h | h) | h) | h) | h
  · exact hn _ hm h
  · exact absurd h (by decide)
  · exact openBrace_notMem_nat _ h
  · exact absurd h (by decide)
  · exact openBrace_notMem_yearText _ h

/-- What stands for a choice holds no opening brace, if neither its name nor its description
does. -/
theorem EnumValue.openBrace_notMem_render {choice : EnumValue}
    (h : ∀ s ∈ Value.texts (.enum choice), '\x7b' ∉ s.toList) : '\x7b' ∉ choice.render.toList := by
  rw [render]
  split
  · next text hd => exact h text (by simp [Value.texts, hd])
  · next text hd hn => exact h text (by simp [Value.texts, hn])
  · exact openBrace_notMem_int _
  · decide

/-- What stands for a value holds no opening brace, if its texts hold none. -/
theorem Value.openBrace_notMem_render {value : Value}
    (h : ∀ s ∈ value.texts, '\x7b' ∉ s.toList) : '\x7b' ∉ value.render.toList := by
  cases value with
  | bool flag => cases flag <;> decide
  | number amount => exact amount.openBrace_notMem_text
  | text s => exact h s (by simp [texts])
  | date day => exact day.openBrace_notMem_text
  | enum choice => exact EnumValue.openBrace_notMem_render h
  | null => decide
  | list items => exact List.not_mem_nil
  | map entries => exact List.not_mem_nil
  | object members => exact List.not_mem_nil

end LoanClosing
