import LoanClosing.Proofs.Model.Texts
import LoanClosing.Proofs.Text.Recased

/-!
# Paths behind their first segment

The first segment of a path is a name in scope, and its case counts. The segments behind it name
members, which are looked up without regard to ASCII case, but exactly first: where no two keys are
equal up to case, the exact key is the only one that can be found, and the case of these segments
does not count. All built members are found in any case, and what is found keeps its keys apart.
-/

namespace LoanClosing

/-! ## Keys that differ in more than case -/

/-- No two keys are equal up to ASCII case. -/
def Table.KeysDiffer {α : Type} (entries : List (String × α)) : Prop :=
  (keys entries).Pairwise fun a b ↦ Text.sameFolded a b = false

instance {α : Type} (entries : List (String × α)) : Decidable (Table.KeysDiffer entries) :=
  inferInstanceAs (Decidable (List.Pairwise _ _))

namespace Value

mutual

/-- No map and no object in a value has two keys that are equal up to ASCII case. -/
def KeysDiffer : Value → Prop
  | .list items => KeysDifferInItems items
  | .map entries | .object entries => Table.KeysDiffer entries ∧ KeysDifferInEntries entries
  | .null | .bool _ | .number _ | .text _ | .date _ | .enum _ => True

/-- The same for items. -/
def KeysDifferInItems : List Value → Prop
  | [] => True
  | item :: items => KeysDiffer item ∧ KeysDifferInItems items

/-- The same for the values of entries. -/
def KeysDifferInEntries : List (String × Value) → Prop
  | [] => True
  | (_, value) :: entries => KeysDiffer value ∧ KeysDifferInEntries entries

end

variable {value found : Value} {segment key : String} {entries : List (String × Value)}

theorem KeysDifferInEntries.of_mem (h : KeysDifferInEntries entries) (hm : (key, value) ∈ entries) :
    value.KeysDiffer := by
  induction entries with
  | nil => cases hm
  | cons entry entries ih =>
    obtain ⟨k, other⟩ := entry
    rw [KeysDifferInEntries] at h
    rcases List.mem_cons.1 hm with he | hm
    · cases he
      exact h.1
    · exact ih h.2 hm

theorem lookup?_eq_findWhere? {α : Type} {entries : List (String × α)}
    (h : Table.KeysDiffer entries) (name : String) :
    lookup? name entries = Table.findWhere? (Text.sameFolded · name) entries := by
  induction entries with
  | nil => rfl
  | cons entry entries ih =>
    obtain ⟨k, first⟩ := entry
    obtain ⟨hk, hrest⟩ : (∀ other ∈ Table.keys entries, Text.sameFolded k other = false) ∧
        Table.KeysDiffer entries := List.pairwise_cons.1 h
    rw [lookup?, Table.find?, Table.findWhere?]
    by_cases hs : Text.sameFolded k name = true
    · -- the key that is found first up to case is the exact one, if there is an exact one
      have hnone : k ≠ name → Table.find? name entries = none := by
        intro hne
        cases hf : Table.find? name entries with
        | none => rfl
        | some v =>
          have hother := hk name (Table.mem_keys_of_find? hf)
          rw [hs] at hother
          cases hother
      rw [if_pos hs]
      by_cases he : k = name
      · rw [if_pos he, Option.some_or]
      · rw [if_neg he, hnone he, Option.none_or]
    · have he : k ≠ name := fun he ↦ hs (he ▸ Text.sameFolded_self k)
      rw [if_neg hs, if_neg he]
      exact ih hrest

/-! ## Members in any case -/

theorem lookup?_lowerAscii {α : Type} {entries : List (String × α)}
    (h : Table.KeysDiffer entries) (name : String) :
    lookup? (Text.lowerAscii name) entries = lookup? name entries := by
  rw [lookup?_eq_findWhere? h, lookup?_eq_findWhere? h]
  exact Table.findWhere?_congr fun key _ ↦ Text.sameFolded_lowerAscii_right

theorem member?_lowerAscii (h : value.KeysDiffer) (segment : String) :
    value.member? (Text.lowerAscii segment) = value.member? segment := by
  cases value with
  | enum choice =>
    simp only [member?, EnumValue.member?, Text.sameFolded_lowerAscii_left]
  | map entries =>
    rw [KeysDiffer] at h
    exact lookup?_lowerAscii h.1 segment
  | object members =>
    rw [KeysDiffer] at h
    exact lookup?_lowerAscii h.1 segment
  | list items => simp only [member?, Text.sameFolded_lowerAscii_left]
  | null | bool flag | number amount | text s | date day => rfl

/-- A member keeps its keys apart: it is stored in the value or holds no keys. -/
theorem KeysDiffer.member? (h : value.KeysDiffer) (hm : value.member? segment = some found) :
    found.KeysDiffer := by
  have of_lookup? {entries : List (String × Value)} (he : KeysDifferInEntries entries)
      (hl : lookup? segment entries = some found) : found.KeysDiffer := by
    rw [lookup?, Option.or_eq_some_iff] at hl
    rcases hl with hf | ⟨-, hf⟩
    · obtain ⟨key, hk⟩ := Table.exists_mem_of_find? hf
      exact he.of_mem hk
    · obtain ⟨key, hk⟩ := Table.exists_mem_of_findWhere? hf
      exact he.of_mem hk
  cases value with
  | enum choice =>
    rw [Value.member?, EnumValue.member?] at hm
    split at hm
    · cases hm
      cases choice.description <;> trivial
    · split at hm
      · cases hm
        cases choice.name <;> trivial
      · split at hm
        · cases hm
          cases choice.value <;> trivial
        · cases hm
  | map entries =>
    rw [KeysDiffer] at h
    exact of_lookup? h.2 hm
  | object members =>
    rw [KeysDiffer] at h
    exact of_lookup? h.2 hm
  | list items =>
    rw [Value.member?] at hm
    split at hm
    · cases hm
      trivial
    · cases hm
  | null | bool flag | number amount | text s | date day => cases hm

/-- Along a whole path the case of the segments does not count. -/
theorem descend_map_lowerAscii (h : value.KeysDiffer) (segments : List String) :
    value.descend (segments.map Text.lowerAscii) = value.descend segments := by
  induction segments generalizing value with
  | nil => rfl
  | cons segment segments ih =>
    rw [List.map_cons, descend, descend, member?_lowerAscii h]
    cases hm : value.member? segment with
    | none => rfl
    | some member =>
      rw [Option.bind_some, Option.bind_some]
      exact ih (h.member? hm)

end Value

/-! ## Paths in any case -/

namespace Scope

/-- Neither the whole loan nor the item of a loop has two keys that are equal up to ASCII case in a
map or an object in it. -/
def KeysDiffer (scope : Scope) : Prop :=
  scope.root.KeysDiffer ∧ ∀ frame ∈ scope.frames, frame.2.KeysDiffer

/-- Segments with all but the first made small. -/
def foldSegments : List String → List String
  | [] => []
  | head :: more => head :: more.map Text.lowerAscii

variable {scope : Scope}

theorem KeysDiffer.binding? (h : scope.KeysDiffer) {name : String} {value : Value}
    (hb : scope.binding? name = some value) : value.KeysDiffer := by
  obtain ⟨key, hk⟩ := Table.exists_mem_of_find? hb
  rcases List.mem_append.1 hk with hk | hk
  · exact h.2 _ hk
  · cases List.mem_singleton.1 hk
    exact h.1

theorem resolveSegments_foldSegments (h : scope.KeysDiffer) (segments : List String) :
    scope.resolveSegments (foldSegments segments) = scope.resolveSegments segments := by
  cases segments with
  | nil => rfl
  | cons head more =>
    rw [foldSegments, resolveSegments, resolveSegments]
    cases hb : scope.binding? head with
    | none => rfl
    | some start =>
      simp only [Value.descend_map_lowerAscii (h.binding? hb)]

theorem foldSegments_segments (path : String) :
    segments (String.ofList (Text.foldTail path.toList)) = foldSegments (segments path) := by
  obtain ⟨head, more, hs, hf⟩ := Text.exists_splitAt_foldTail path.toList
  rw [segments, segments, String.toList_ofList, hs, hf, List.map_cons, List.map_cons, foldSegments,
    List.map_map, List.map_map]
  congr 1
  refine List.map_congr_left fun piece _ ↦ ?_
  rw [Function.comp_apply, Function.comp_apply, Text.trimChars_map_toLower, Text.lowerAscii,
    String.toList_ofList]

/-- Made small behind its first segment, a path leads where it led. -/
theorem resolve_foldTail (h : scope.KeysDiffer) (path : String) :
    scope.resolve (String.ofList (Text.foldTail path.toList)) = scope.resolve path := by
  rw [resolve, resolve, foldSegments_segments, resolveSegments_foldSegments h]

/-- Paths that differ in the case of what is behind the first segment lead to the same. -/
theorem resolve_eq_of_foldTail_eq (h : scope.KeysDiffer) {path other : String}
    (hp : Text.foldTail other.toList = Text.foldTail path.toList) :
    scope.resolve other = scope.resolve path := by
  rw [← resolve_foldTail h other, hp, resolve_foldTail h]

end Scope

end LoanClosing
