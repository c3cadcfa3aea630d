import LoanClosing.Proofs.Condition.Bound
import LoanClosing.Proofs.Condition.TextEquality
import LoanClosing.Proofs.Text.Words

/-!
# Placing a value in loan data

Exact names lead through objects and maps, and to one place at most. A member is set at the end of a
path of such names all or nothing: when something on the way is there and is not an object, the data
stay as they are. Else the way is clear, the value is at its place afterwards, and no place apart
from that way has changed.
-/

namespace LoanClosing

/-! ## Dotted paths -/

/-- The pieces of texts with the separator between two of them are the pieces of all the texts. -/
theorem Text.splitAt_intercalate (separator : Char) (piece : List Char)
    (pieces : List (List Char)) :
    splitAt separator ([separator].intercalate (piece :: pieces)) =
      (piece :: pieces).flatMap (splitAt separator) := by
  induction pieces generalizing piece with
  | nil => rw [List.intercalate_singleton, List.flatMap_singleton]
  | cons next pieces ih =>
    rw [List.intercalate_cons_cons, List.append_assoc, List.singleton_append, splitAt_append_cons,
      ih, ← List.flatMap_cons]

namespace Scope

theorem segments_intercalate (name : String) (names : List String) :
    segments (".".intercalate (name :: names)) = (name :: names).flatMap segments := by
  have hpoint : ".".toList = ['.'] := rfl
  rw [segments, String.toList_intercalate, hpoint, List.map_cons, Text.splitAt_intercalate,
    ← List.map_cons, List.flatMap_map, List.map_flatMap]
  rfl

/-- An identifier is a segment as it is. -/
theorem segments_of_isIdentifier {name : String} (h : Text.isIdentifier name.toList = true) :
    segments name = [name] := by
  rw [segments, Text.splitAt_of_notMem (Text.point_notMem_of_isIdentifier h), List.map_singleton]
  exact congrArg (fun segment ↦ [segment]) (Text.trim_of_isIdentifier h)

end Scope

namespace Value

/-! ## Exact paths -/

/-- The value stored at the end of a path of exact names, which leads through objects and maps. -/
def stored? : List String → Value → Option Value
  | [], value => some value
  | key :: path, .object entries | key :: path, .map entries =>
    (Table.find? key entries).bind (stored? path)
  | _ :: _, _ => none

/-- A record. -/
def IsObject (value : Value) : Prop := ∃ members, value = .object members

/-- Something on the way to the last name of a path is there and is not an object. -/
def IsBlocked (path : List String) (model : Value) : Prop :=
  ∃ way value, way <+: path ∧ way ≠ path ∧ model.stored? way = some value ∧ ¬ value.IsObject

/-- What a step on the way leads to: the member of that name, or a new object if there is none. -/
def memberOrNew (key : String) (members : List (String × Value)) : Value :=
  (Table.find? key members).getD (.object [])

/-- The way to the last name of a path leads through objects only; those that are not there yet are
new ones. -/
inductive IsClear : List String → Value → Prop
  | last (key : String) (members : List (String × Value)) : IsClear [key] (.object members)
  | step {key : String} {path : List String} {members : List (String × Value)}
      (h : IsClear path (memberOrNew key members)) : IsClear (key :: path) (.object members)

variable {new model value found : Value} {key : String} {path way other : List String}
  {members : List (String × Value)}

theorem stored?_object : stored? (key :: path) (.object members) =
    (Table.find? key members).bind (stored? path) := rfl

theorem stored?_put_self : stored? (key :: path) (.object (Table.put key value members)) =
    stored? path value := by
  rw [stored?_object, Table.find?_put_self, Option.bind_some]

theorem stored?_put_of_ne {name : String} (h : name ≠ key) :
    stored? (name :: path) (.object (Table.put key value members)) =
      stored? (name :: path) (.object members) := by
  rw [stored?_object, stored?_object, Table.find?_put_of_ne h]

/-- A new object has nothing in it, so that it makes no difference behind it. -/
theorem stored?_memberOrNew (hp : path ≠ []) :
    stored? path (memberOrNew key members) = stored? (key :: path) (.object members) := by
  obtain ⟨name, rest, rfl⟩ := List.exists_cons_of_ne_nil hp
  rw [stored?_object, memberOrNew]
  cases Table.find? key members <;> rfl

/-- An exact path that leads somewhere leads there as any path does: exact names come first. -/
theorem descend_of_stored? (h : value.stored? path = some found) :
    value.descend path = some found := by
  induction path generalizing value with
  | nil => exact h
  | cons key path ih =>
    cases value with
    | object entries | map entries =>
      obtain ⟨inner, hf, hi⟩ := Option.bind_eq_some_iff.1 h
      rw [descend, member?, lookup?, hf, Option.some_or, Option.bind_some, ih hi]
    | _ => cases h

/-! ## Clear and blocked ways -/

theorem IsClear.ne_nil (h : IsClear path model) : path ≠ [] := by
  cases h <;> exact List.cons_ne_nil _ _

theorem isBlocked_of_not_isObject (hp : path ≠ []) (h : ¬ model.IsObject) : IsBlocked path model :=
  ⟨[], model, List.nil_prefix, hp.symm, rfl, h⟩

/-- What blocks the way to a path below a member blocks it from above. -/
theorem IsBlocked.step (h : IsBlocked path (memberOrNew key members)) :
    IsBlocked (key :: path) (.object members) := by
  obtain ⟨way, value, hw, hne, hv, ho⟩ := h
  refine ⟨key :: way, value, List.cons_prefix_cons.2 ⟨rfl, hw⟩, ?_, ?_, ho⟩
  · exact fun he ↦ hne (List.cons.inj he).2
  rw [stored?_object]
  rw [memberOrNew] at hv
  cases hf : Table.find? key members with
  | some inner =>
    rw [hf] at hv
    exact hv
  | none =>
    -- A new object is an object, and there is nothing below it.
    rw [hf, Option.getD_none] at hv
    cases way with
    | nil => exact absurd ⟨[], (Option.some.inj hv).symm⟩ ho
    | cons name way => exact absurd hv nofun

/-- What blocks the way from an object is below one of its members. -/
theorem IsBlocked.exists_find? (h : IsBlocked (key :: path) (.object members)) :
    ∃ inner, Table.find? key members = some inner ∧ IsBlocked path inner := by
  obtain ⟨way, value, hw, hne, hv, ho⟩ := h
  cases way with
  | nil => exact absurd ⟨members, (Option.some.inj hv).symm⟩ ho
  | cons name way =>
    obtain ⟨rfl, hw'⟩ := List.cons_prefix_cons.1 hw
    obtain ⟨inner, hf, hi⟩ := Option.bind_eq_some_iff.1 hv
    exact ⟨inner, hf, way, value, hw', fun he ↦ hne (he ▸ rfl), hi, ho⟩

theorem not_isBlocked_nil : ¬ IsBlocked [] model := by
  rintro ⟨way, value, hw, hne, -⟩
  exact hne (List.prefix_nil.1 hw)

/-- A way is clear that nothing blocks. -/
theorem isClear_iff : IsClear path model ↔ path ≠ [] ∧ ¬ IsBlocked path model := by
  constructor
  · intro h
    refine ⟨h.ne_nil, fun hb ↦ ?_⟩
    induction h with
    | last key members =>
      obtain ⟨inner, -, hb⟩ := hb.exists_find?
      exact not_isBlocked_nil hb
    | step h ih =>
      obtain ⟨inner, hf, hb⟩ := hb.exists_find?
      rw [memberOrNew, hf, Option.getD_some] at ih
      exact ih hb
  · rintro ⟨hp, h⟩
    induction path generalizing model with
    | nil => exact absurd rfl hp
    | cons key path ih =>
      obtain ⟨members, rfl⟩ : model.IsObject := by
        by_contra ho
        exact h (isBlocked_of_not_isObject hp ho)
      by_cases hn : path = []
      · subst hn
        exact .last key members
      · exact .step (ih hn fun hb ↦ h hb.step)

/-! ## Setting a member -/

theorem setMember_cons (hp : path ≠ []) : setMember new (key :: path) (.object members) =
    .object (Table.put key (setMember new path (memberOrNew key members)) members) := by
  obtain ⟨next, rest, rfl⟩ := List.exists_cons_of_ne_nil hp
  rfl

/-- When the way is blocked, nothing changes: what is new would stand behind what blocks it. -/
theorem setMember_of_isBlocked (h : IsBlocked path model) : setMember new path model = model := by
  fun_induction setMember new path model with
  | case1 key members =>
    obtain ⟨inner, -, hb⟩ := h.exists_find?
    exact absurd hb not_isBlocked_nil
  | case2 key next path members inner ih =>
    obtain ⟨found, hf, hb⟩ := h.exists_find?
    have hinner : inner = found := by simp only [inner, hf, Option.getD_some]
    rw [hinner] at ih ⊢
    rw [ih hb, Table.put_of_find? hf]
  | case3 => rfl

/-- When the way is clear, the path leads to the value. -/
theorem stored?_setMember_self (h : IsClear path model) :
    (setMember new path model).stored? path = some new := by
  induction h with
  | last key members => exact stored?_put_self
  | step h ih => rw [setMember_cons h.ne_nil, stored?_put_self, ih]

/-- Nothing changes apart from the way and what is behind it. -/
theorem stored?_setMember_of_apart (h : IsClear path model) (ho : ¬ other <+: path)
    (hp : ¬ path <+: other) : (setMember new path model).stored? other = model.stored? other := by
  induction h generalizing other with
  | last key members =>
    cases other with
    | nil => exact absurd List.nil_prefix ho
    | cons name rest =>
      have hne : name ≠ key := by
        rintro rfl
        exact hp (List.cons_prefix_cons.2 ⟨rfl, List.nil_prefix⟩)
      exact stored?_put_of_ne hne
  | @step key path members h ih =>
    rw [setMember_cons h.ne_nil]
    cases other with
    | nil => exact absurd List.nil_prefix ho
    | cons name rest =>
      by_cases hne : name = key
      · subst hne
        rw [List.cons_prefix_cons, not_and] at ho hp
        have hrest : rest ≠ [] := by
          rintro rfl
          exact ho rfl List.nil_prefix
        rw [stored?_put_self, ih (ho rfl) (hp rfl), stored?_memberOrNew hrest]
      · exact stored?_put_of_ne hne

/-- On the way there are objects, with the members that they had and at most new ones behind
them. -/
theorem exists_stored?_setMember (h : IsClear path model) (hw : way <+: path) (hne : way ≠ path) :
    ∃ members', (setMember new path model).stored? way = some (.object members') ∧
      ∀ members, model.stored? way = some (.object members) →
        Table.keys members <+: Table.keys members' := by
  induction h generalizing way with
  | last key members =>
    obtain rfl : way = [] := by
      rcases List.prefix_cons_iff.1 hw with rfl | ⟨rest, rfl, hr⟩
      · rfl
      · exact absurd (by rw [List.prefix_nil.1 hr]) hne
    refine ⟨Table.put key new members, rfl, fun members' hm ↦ ?_⟩
    obtain rfl : members = members' := by simpa [stored?] using hm
    exact Table.keys_prefix_put key new members
  | @step key path members h ih =>
    rw [setMember_cons h.ne_nil]
    cases way with
    | nil =>
      refine ⟨_, rfl, fun members' hm ↦ ?_⟩
      obtain rfl : members = members' := by simpa [stored?] using hm
      exact Table.keys_prefix_put _ _ _
    | cons name way =>
      obtain ⟨rfl, hw'⟩ := List.cons_prefix_cons.1 hw
      obtain ⟨members', he, hk⟩ := ih hw' fun hn ↦ hne (hn ▸ rfl)
      refine ⟨members', stored?_put_self.trans he, fun old ho ↦ hk old ?_⟩
      obtain ⟨inner, hf, hi⟩ := Option.bind_eq_some_iff.1 ho
      rw [memberOrNew, hf, Option.getD_some, hi]

end Value

/-- A path that names the whole first leads to where its exact names lead below that. -/
theorem Scope.resolve_of_stored? {rootName : String} {path : List String} {root found : Value}
    (hr : segments rootName = [rootName])
    (hk : ∀ key ∈ path, Text.isIdentifier key.toList = true) (h : root.stored? path = some found) :
    (outermost rootName root).resolve (".".intercalate (rootName :: path)) = .found found := by
  have hpath : path.flatMap segments = path := by
    rw [List.flatMap_congr fun key hm ↦ segments_of_isIdentifier (hk key hm)]
    exact List.flatMap_singleton' path
  have hroot : (outermost rootName root).binding? rootName = some root := by
    rw [binding?, outermost, List.nil_append, Table.find?, if_pos rfl]
  rw [resolve, segments_intercalate, List.flatMap_cons, hr, hpath, List.singleton_append,
    resolveSegments_of_binding? hroot, Value.descend_of_stored? h]
  rfl

namespace Value

/-- A value has been placed at the end of a path of exact names, and nothing else has happened. -/
structure Placed (new : Value) (path : List String) (before after : Value) : Prop where
  /-- The path leads to the value. -/
  holds : after.stored? path = some new
  /-- All on the way is an object. -/
  parents : ∀ way, way <+: path → way ≠ path → ∃ value, after.stored? way = some value ∧
    value.IsObject
  /-- What is neither on the way nor behind it stays as it was, and nothing new is there. -/
  apart : ∀ other, ¬ other <+: path → ¬ path <+: other → after.stored? other = before.stored? other
  /-- The members of an object that is not replaced keep their order, in front of new ones. -/
  order : ∀ way members, ¬ path <+: way → before.stored? way = some (.object members) →
    ∃ members', after.stored? way = some (.object members') ∧
      Table.keys members <+: Table.keys members'
  /-- With points between the names, the path resolves to the value. -/
  resolves : ∀ rootName, Scope.segments rootName = [rootName] →
    (∀ key ∈ path, Text.isIdentifier key.toList = true) →
    (Scope.outermost rootName after).resolve (".".intercalate (rootName :: path)) = .found new

/-- Setting a member is all or nothing: it changes nothing when something on the way to it is there
and is not an object, and places the value otherwise. -/
theorem setMember_all_or_nothing {path : List String} (hp : path ≠ []) (new model : Value) :
    (IsBlocked path model → setMember new path model = model) ∧
      (¬ IsBlocked path model → Placed new path model (setMember new path model)) := by
  refine ⟨setMember_of_isBlocked, fun hb ↦ ?_⟩
  have h : IsClear path model := isClear_iff.2 ⟨hp, hb⟩
  refine ⟨stored?_setMember_self h, fun way hw hne ↦ ?_,
    fun other ho hp ↦ stored?_setMember_of_apart h ho hp, fun way members hp hm ↦ ?_,
    fun rootName hr hk ↦ Scope.resolve_of_stored? hr hk (stored?_setMember_self h)⟩
  · obtain ⟨members, he, -⟩ := exists_stored?_setMember h hw hne
    exact ⟨_, he, members, rfl⟩
  · by_cases hw : way <+: path
    · have hne : way ≠ path := fun he ↦ hp (he ▸ List.prefix_rfl)
      obtain ⟨members', he, hk⟩ := exists_stored?_setMember h hw hne
      exact ⟨members', he, hk members hm⟩
    · exact ⟨members, (stored?_setMember_of_apart h hw hp).trans hm, List.prefix_rfl⟩

theorem setMember_all_or_nothing_property :
    let model : Value := .object [("property", .text "Lot 4"),
      ("Property", .object [("state", .text "CA"), ("County", .text "Kern")]),
      ("Fees", .map [("Recording", .text "120")])]
    let changed : Value := .object [("property", .text "Lot 4"),
      ("Property", .object [("state", .text "CA"), ("County", .text "Kern"),
        ("Address", .object [("State", .text "NV")])]),
      ("Fees", .map [("Recording", .text "120")])]
    (["Property", "Address", "State"] ≠ [] ∧ ¬ IsBlocked ["Property", "Address", "State"] model ∧
      setMember (.text "NV") ["Property", "Address", "State"] model = changed ∧
      Placed (.text "NV") ["Property", "Address", "State"] model changed) ∧
    ["Fees", "Recording"] ≠ [] ∧ IsBlocked ["Fees", "Recording"] model ∧
      setMember .null ["Fees", "Recording"] model = model := by
  intro model changed
  have hclear : ¬ IsBlocked ["Property", "Address", "State"] model :=
    (isClear_iff.1 (.step (.step (.last "State" [])))).2
  have hblocked : IsBlocked ["Fees", "Recording"] model :=
    ⟨["Fees"], .map [("Recording", .text "120")], ⟨["Recording"], rfl⟩, by decide, rfl, nofun⟩
  refine ⟨⟨List.cons_ne_nil _ _, hclear, rfl, ?_⟩, List.cons_ne_nil _ _, hblocked, ?_⟩
  · exact (setMember_all_or_nothing (List.cons_ne_nil _ _) (.text "NV") model).2 hclear
  · exact (setMember_all_or_nothing (List.cons_ne_nil _ _) .null model).1 hblocked

end Value

end LoanClosing
