import LoanClosing.Proofs.Json.Value

/-!
# What readers ensure

A reader ensures a property at a level of nesting if all data have it that it reads from a bounded
tree there. What a record, a list or a variant ensures follows from what its parts ensure one level
below, and that it could be read at all says that it is not nested too deep.
-/

namespace LoanClosing.Json.Decode

open Node

variable {α β σ τ : Type} {source : Source} {level : Nat}

/-- Whether all data that are read from a bounded tree at a level of nesting have a property. -/
def Ensures (decode : Decoder α) (source : Source) (level : Nat) (P : α → Prop) : Prop :=
  ∀ node a, Bounded level node → decode source node = .ok a → P a

theorem Ensures.trivial (decode : Decoder α) (source : Source) (level : Nat) :
    Ensures decode source level fun _ ↦ True :=
  fun _ _ _ _ ↦ True.intro

theorem Ensures.imp {decode : Decoder α} {P Q : α → Prop} (h : Ensures decode source level P)
    (hpq : ∀ a, P a → Q a) : Ensures decode source level Q :=
  fun node a hb hd ↦ hpq a (h node a hb hd)

/-- Nothing is read where something else was expected. -/
theorem refuse_ne_ok (expected : String) (node : Node) (a : α) : node.refuse expected ≠ .ok a := by
  unfold refuse
  split <;> exact nofun

/-- Any value that is read fits where it stands and is in byte order. -/
theorem ensures_json : Ensures json source level fun j ↦ Fits level j ∧ Sorted j := by
  intro node j hb h
  unfold json orMalformed at h
  cases hv : valueOf node with
  | error fault => rw [hv] at h; cases h
  | ok value =>
    rw [hv] at h
    obtain rfl := Except.ok.inj h
    exact fits_valueOf hb hv

/-! ### Lists and options -/

theorem mem_of_items_eq_ok {decode : Decoder α} {nodes : List Node} {as : List α} {a : α}
    (h : items decode source nodes = .ok as) (ha : a ∈ as) :
    ∃ node ∈ nodes, decode source node = .ok a := by
  induction nodes generalizing as with
  | nil => exact absurd (Except.ok.inj h ▸ ha) List.not_mem_nil
  | cons node nodes ih =>
    obtain ⟨first, hfirst, h⟩ := exists_of_bind_eq_ok h
    obtain ⟨others, hothers, h⟩ := exists_of_bind_eq_ok h
    obtain rfl := Except.ok.inj h
    rcases List.mem_cons.1 ha with rfl | ha
    · exact ⟨node, List.mem_cons_self, hfirst⟩
    · obtain ⟨other, ho, hd⟩ := ih hothers ha
      exact ⟨other, List.mem_cons_of_mem _ ho, hd⟩

theorem ensures_list {decode : Decoder α} {P : α → Prop} (h : Ensures decode source (level + 1) P) :
    Ensures (list decode) source level fun as ↦ ∀ a ∈ as, P a := by
  intro node as hb hd a ha
  unfold list at hd
  split at hd
  · obtain ⟨read, hread, hd⟩ := exists_of_bind_eq_ok hd
    obtain ⟨_, -, hd⟩ := exists_of_bind_eq_ok hd
    obtain rfl := Except.ok.inj hd
    obtain ⟨item, hi, hitem⟩ := mem_of_items_eq_ok hread ha
    cases hb with
    | array _ hitems => exact h item a (hitems item hi) hitem
  · cases hd
  · exact absurd hd (refuse_ne_ok _ _ _)

theorem ensures_option {decode : Decoder α} {P : α → Prop} (h : Ensures decode source level P) :
    Ensures (option decode) source level fun read ↦ ∀ a, read = some a → P a := by
  rintro node read hb hd a rfl
  unfold option at hd
  split at hd
  · cases hd
  · obtain ⟨b, hread, hb'⟩ := exists_of_map_eq_ok hd
    exact h node a hb (Option.some.inj hb' ▸ hread)

theorem items_ofItems {decode : Decoder α} {write : α → Json} {as : List α}
    (h : ∀ a ∈ as, decode source (.ofJson (write a)) = .ok a) :
    items decode source (ofItems (as.map write)) = .ok as := by
  induction as with
  | nil => rfl
  | cons a as ih =>
    have ⟨ha, has⟩ := List.forall_mem_cons.1 h
    rw [List.map_cons, ofItems, items, ha, ih has]
    rfl

/-- A list is read back when each of its items is. -/
theorem list_ofJson {decode : Decoder α} {write : α → Json} {as : List α}
    (h : ∀ a ∈ as, decode source (.ofJson (write a)) = .ok a) :
    list decode source (.ofJson (.array (as.map write))) = .ok as := by
  rw [ofJson, list, items_ofItems h]
  rfl

theorem list_text_ofJson (as : List String) :
    list text source (.ofJson (.array (as.map .text))) = .ok as :=
  list_ofJson fun _ _ ↦ rfl

theorem json_ofJson {j : Json} (h : Sorted j) : json source (.ofJson j) = .ok j := by
  rw [json, valueOf_ofJson h]
  rfl

/-! ### Records -/

/-- Whether a field has a property wherever it is read and where it is left out. -/
structure FieldEnsures (field : Field α) (source : Source) (level : Nat) (P : α → Prop) : Prop where
  decode : Ensures field.decode source level P
  fallback : ∀ a, field.fallback = some a → P a

theorem ensures_required {name : String} {decode : Decoder α} {P : α → Prop}
    (h : Ensures decode source level P) : FieldEnsures (required name decode) source level P :=
  ⟨h, nofun⟩

theorem ensures_defaulted {name : String} {decode : Decoder α} {fallback : α} {P : α → Prop}
    (h : Ensures decode source level P) (hf : P fallback) :
    FieldEnsures (defaulted name decode fallback) source level P :=
  ⟨h, fun _ ha ↦ Option.some.inj ha ▸ hf⟩

/-- What holds of the fields met so far and of all of them, however they are read. -/
structure Keeps (fields : Fields σ τ) (source : Source) (level : Nat) (met : σ → Prop)
    (P : τ → Prop) : Prop where
  start : met fields.start
  meet : ∀ name node slots slots', Bounded level node → met slots →
    fields.meet source name node slots = some (.ok slots') → met slots'
  finish : ∀ slots t, met slots → fields.finish slots = .ok t → P t
  take : ∀ missing index fault nodes t rest, (∀ node ∈ nodes, Bounded level node) →
    fields.take source missing index fault nodes = .ok (t, rest) →
      P t ∧ ∀ node ∈ rest, Bounded level node

/-- Whether the fields of a record have a property however they are read. -/
def FieldsEnsure (fields : Fields σ τ) (source : Source) (level : Nat) (P : τ → Prop) : Prop :=
  ∃ met, Keeps fields source level met P

section Fields

variable {field : Field α} {fields : Fields σ τ} {P : α → Prop} {Q : τ → Prop}

theorem FieldEnsures.meet (h : FieldEnsures field source level P) {node : Node}
    {slot slot' : Option α} (hb : Bounded level node)
    (hm : field.meet source node slot = .ok slot') : ∀ a, slot' = some a → P a := by
  rintro a rfl
  cases slot with
  | some _ => cases hm
  | none =>
    obtain ⟨b, hread, hb'⟩ := exists_of_map_eq_ok hm
    exact h.decode node a hb (Option.some.inj hb' ▸ hread)

theorem FieldEnsures.finish (h : FieldEnsures field source level P) {slot : Option α} {a : α}
    (hs : ∀ a, slot = some a → P a) (hf : field.finish slot = .ok a) : P a := by
  cases slot with
  | some b => exact hs a (Except.ok.inj hf ▸ rfl)
  | none =>
    unfold Field.finish at hf
    dsimp only at hf
    split at hf
    · next hfb => exact h.fallback a (Except.ok.inj hf ▸ hfb)
    · cases hf

theorem FieldEnsures.take (h : FieldEnsures field source level P) {missing : Nat → DecodeError}
    {index : Nat} {fault : Option Fault} {nodes rest : List Node} {a : α}
    (hb : ∀ node ∈ nodes, Bounded level node)
    (ht : field.take source missing index fault nodes = .ok (a, rest)) :
    P a ∧ ∀ node ∈ rest, Bounded level node := by
  cases nodes with
  | cons node nodes =>
    obtain ⟨hnode, hnodes⟩ := List.forall_mem_cons.1 hb
    obtain ⟨b, hread, hb'⟩ := exists_of_map_eq_ok ht
    obtain ⟨rfl, rfl⟩ := Prod.mk.inj hb'
    exact ⟨h.decode node _ hnode hread, hnodes⟩
  | nil =>
    unfold Field.take at ht
    dsimp only at ht
    split at ht
    · cases ht
    · next hfb =>
      obtain ⟨rfl, rfl⟩ := Prod.mk.inj (Except.ok.inj ht)
      exact ⟨h.fallback _ hfb, List.forall_mem_nil _⟩
    · cases ht

theorem FieldEnsures.only (h : FieldEnsures field source level P) :
    FieldsEnsure field.only source level P := by
  refine ⟨fun slot ↦ ∀ a, slot = some a → P a, nofun, ?_, fun _ _ hs ↦ h.finish hs,
    fun _ _ _ _ _ _ ↦ h.take⟩
  intro name node slot slot' hb _ hm
  change (if name = field.name then _ else _) = _ at hm
  split at hm
  · exact h.meet hb (Option.some.inj hm)
  · cases hm

theorem FieldEnsures.and (h : FieldEnsures field source level P)
    (hs : FieldsEnsure fields source level Q) :
    FieldsEnsure (field.and fields) source level fun t ↦ P t.1 ∧ Q t.2 := by
  obtain ⟨met, hk⟩ := hs
  refine ⟨fun slots ↦ (∀ a, slots.1 = some a → P a) ∧ met slots.2, ⟨nofun, hk.start⟩, ?_, ?_, ?_⟩
  · intro name node slots slots' hb hmet hm
    change (if name = field.name then _ else _) = _ at hm
    split at hm
    · obtain ⟨slot, hslot, rfl⟩ := exists_of_map_eq_ok (Option.some.inj hm)
      exact ⟨h.meet hb hslot, hmet.2⟩
    · obtain ⟨read, hread, hm⟩ := Option.map_eq_some_iff.1 hm
      obtain ⟨rest, rfl, rfl⟩ := exists_of_map_eq_ok hm
      exact ⟨hmet.1, hk.meet _ _ _ _ hb hmet.2 hread⟩
  · intro slots t hmet hf
    obtain ⟨a, ha, hf⟩ := exists_of_bind_eq_ok hf
    obtain ⟨rest, hrest, hf⟩ := exists_of_bind_eq_ok hf
    obtain rfl := Except.ok.inj hf
    exact ⟨h.finish hmet.1 ha, hk.finish _ _ hmet.2 hrest⟩
  · intro missing index fault nodes t rest hb ht
    obtain ⟨⟨a, left⟩, ha, ht⟩ := exists_of_bind_eq_ok ht
    obtain ⟨⟨others, more⟩, hothers, ht⟩ := exists_of_bind_eq_ok ht
    obtain ⟨rfl, rfl⟩ := Prod.mk.inj (Except.ok.inj ht)
    have ⟨hpa, hleft⟩ := h.take hb ha
    have ⟨hq, hmore⟩ := hk.take _ _ _ _ _ _ hleft hothers
    exact ⟨⟨hpa, hq⟩, hmore⟩

/-- The fields met along the members of an object. -/
theorem Keeps.walk {met : σ → Prop} (h : Keeps fields source level met Q) {slots slots' : σ}
    {members : List (Key × Node)}
    (hb : ∀ key node, (.ok key, node) ∈ members → Bounded level node) (hmet : met slots)
    (hw : fields.walk source slots members = .ok slots') : met slots' := by
  induction members generalizing slots with
  | nil => exact Except.ok.inj hw ▸ hmet
  | cons member members ih =>
    obtain ⟨key, node⟩ := member
    obtain ⟨name, hkey, hw⟩ := exists_of_bind_eq_ok hw
    have hnode : Bounded level node := by
      cases key with
      | error => cases hkey
      | ok key => exact hb key node List.mem_cons_self
    have hmembers := fun key node hm ↦ hb key node (List.mem_cons_of_mem _ hm)
    split at hw
    · next hm =>
      obtain ⟨next, rfl, hw⟩ := exists_of_bind_eq_ok hw
      exact ih hmembers (h.meet _ _ _ _ hnode hmet hm) hw
    · obtain ⟨_, -, hw⟩ := exists_of_bind_eq_ok hw
      exact ih hmembers hmet hw

/-- A record ensures what its fields ensure one level below. -/
theorem FieldsEnsure.record (h : FieldsEnsure fields source (level + 1) Q) (kind : String) :
    Ensures (record kind fields) source level fun t ↦ level < maxDepth ∧ Q t := by
  obtain ⟨met, hk⟩ := h
  intro node t hb hd
  unfold Decode.record at hd
  split at hd
  · obtain ⟨slots, hslots, hd⟩ := exists_of_bind_eq_ok hd
    obtain ⟨_, -, hd⟩ := exists_of_bind_eq_ok hd
    cases hb with
    | object hl hmembers => exact ⟨hl, hk.finish _ _ (hk.walk hmembers hk.start hslots) hd⟩
  · obtain ⟨⟨read, rest⟩, htake, hd⟩ := exists_of_bind_eq_ok hd
    obtain ⟨_, -, hd⟩ := exists_of_bind_eq_ok hd
    obtain rfl := Except.ok.inj hd
    cases hb with
    | array hl hitems => exact ⟨hl, (hk.take _ _ _ _ _ _ hitems htake).1⟩
  · cases hd
  · exact absurd hd (refuse_ne_ok _ _ _)

end Fields

/-! ### Records read back -/

/-- Whether the members of an object are read as the fields of a record. -/
def Reads (fields : Fields σ τ) (source : Source) (members : List (Key × Node)) (t : τ) : Prop :=
  ∃ slots, fields.walk source fields.start members = .ok slots ∧ fields.finish slots = .ok t

section Reads

variable {field : Field α} {fields : Fields σ τ} {members : List (Key × Node)} {node : Node} {a : α}
  {t : τ}

/-- Whether no member of an object has a name. -/
def Lacks (name : String) (members : List (Key × Node)) : Prop :=
  ∀ member ∈ members, member.1 ≠ .ok name

theorem Lacks.nil {name : String} : Lacks name [] := List.forall_mem_nil _

theorem Lacks.cons {name key : String} (h : key ≠ name) (hm : Lacks name members) :
    Lacks name ((.ok key, node) :: members) :=
  List.forall_mem_cons.2 ⟨fun he ↦ h (Except.ok.inj he), hm⟩

/-- A member is met by the field of its name, or passed over. -/
theorem walk_cons (name : String) (slots : σ) :
    fields.walk source slots ((.ok name, node) :: members) =
      match fields.meet source name node slots with
      | some met => met >>= fun slots ↦ fields.walk source slots members
      | none => orMalformed node.skip >>= fun _ ↦ fields.walk source slots members :=
  rfl

theorem walk_cons_some {name : String} {slots slots' : σ}
    (h : fields.meet source name node slots = some (.ok slots')) :
    fields.walk source slots ((.ok name, node) :: members) = fields.walk source slots' members := by
  rw [walk_cons, h]
  rfl

theorem meet_none (h : field.decode source node = .ok a) :
    field.meet source node none = .ok (some a) := by
  rw [Field.meet, h]
  rfl

theorem reads_only (h : field.decode source node = .ok a) :
    Reads field.only source [(.ok field.name, node)] a :=
  ⟨some a, walk_cons_some ((if_pos rfl).trans (congrArg some (meet_none h))), rfl⟩

theorem reads_only_nil (h : field.fallback = some a) : Reads field.only source [] a := by
  refine ⟨none, rfl, ?_⟩
  simp only [Field.only, Field.finish, h]

/-- Members with other names pass a field by. -/
theorem walk_and (h : Lacks field.name members) (slot : Option α) (slots : σ) :
    (field.and fields).walk source (slot, slots) members =
      (fields.walk source slots members).map (slot, ·) := by
  induction members generalizing slots with
  | nil => rfl
  | cons member members ih =>
    obtain ⟨key, node⟩ := member
    have ⟨hkey, hmembers⟩ := List.forall_mem_cons.1 h
    cases key with
    | error fault => rfl
    | ok name =>
      have hname : name ≠ field.name := fun hn ↦ hkey (hn ▸ rfl)
      have hmeet : (field.and fields).meet source name node (slot, slots) =
          (fields.meet source name node slots).map fun rest ↦ rest.map (slot, ·) := if_neg hname
      rw [walk_cons, walk_cons, hmeet]
      cases fields.meet source name node slots with
      | none =>
        cases orMalformed node.skip with
        | error => rfl
        | ok => exact ih hmembers slots
      | some met =>
        cases met with
        | error => rfl
        | ok slots => exact ih hmembers slots

theorem Reads.and (hs : Reads fields source members t) (h : field.decode source node = .ok a)
    (hn : Lacks field.name members) :
    Reads (field.and fields) source ((.ok field.name, node) :: members) (a, t) := by
  obtain ⟨slots, hw, hf⟩ := hs
  have hmeet : (field.and fields).meet source field.name node (field.and fields).start =
      some (.ok (some a, fields.start)) :=
    (if_pos rfl).trans (by rw [Field.and, meet_none h]; rfl)
  refine ⟨(some a, slots), ?_, ?_⟩
  · rw [walk_cons_some hmeet, walk_and hn, hw]
    rfl
  · change (do
      let a ← field.finish (some a)
      let rest ← fields.finish slots
      Except.ok (a, rest)) = _
    rw [hf]
    rfl

theorem Reads.record (h : Reads fields source members t) (kind : String) :
    record kind fields source (.object members none) = .ok t := by
  obtain ⟨slots, hw, hf⟩ := h
  rw [Decode.record, hw]
  exact hf

end Reads

/-! ### Variants -/

section Variant

variable {choose : String → Except DecodeError (Payload α)} {P : α → Prop}

/-- Whether each choice of a variant has a property: what is told by the name alone, and what is
read one level below. -/
structure ChoicesEnsure (choose : String → Except DecodeError (Payload α)) (source : Source)
    (level : Nat) (P : α → Prop) : Prop where
  none : ∀ name a, choose name = .ok (.none a) → P a
  data : ∀ name decode, choose name = .ok (.data decode) → level < maxDepth →
    Ensures decode source (level + 1) P

theorem ChoicesEnsure.bareVariant (h : ChoicesEnsure choose source level P) {name : String} {a : α}
    (hc : choose name >>= bareVariant = .ok a) : P a := by
  obtain ⟨chosen, hchosen, hc⟩ := exists_of_bind_eq_ok hc
  cases chosen with
  | none value => exact h.none name a (Except.ok.inj hc ▸ hchosen)
  | data decode => cases hc

theorem ChoicesEnsure.payload (h : ChoicesEnsure choose source level P) {name : String}
    {chosen : Payload α} {node : Node} {a : α} (hl : level < maxDepth)
    (hb : Bounded (level + 1) node) (hc : choose name = .ok chosen)
    (hp : payload source node chosen = .ok a) : P a := by
  cases chosen with
  | none value =>
    unfold Decode.payload at hp
    dsimp only at hp
    split at hp
    · exact h.none name a (Except.ok.inj hp ▸ hc)
    · exact absurd hp (refuse_ne_ok _ _ _)
  | data decode => exact h.data name decode hc hl node a hb hp

/-- A variant ensures what its choices ensure. -/
theorem ChoicesEnsure.variant (h : ChoicesEnsure choose source level P) :
    Ensures (variant choose) source level P := by
  intro node a hb hd
  have hmember {key : Key} {value : Node} {members : List (Key × Node)} {ending : Option Fault}
      {name : String} {chosen : Payload α}
      (hb : Bounded level (.object ((key, value) :: members) ending))
      (hk : orMalformed key = .ok name) (hc : choose name = .ok chosen)
      (hp : Decode.payload source value chosen = .ok a) : P a := by
    cases hb with
    | object hl hmembers =>
      cases key with
      | error => cases hk
      | ok key => exact h.payload hl (hmembers key value List.mem_cons_self) hc hp
  unfold Decode.variant at hd
  split at hd
  · obtain ⟨name, -, hd⟩ := exists_of_bind_eq_ok hd
    exact h.bareVariant hd
  · cases hd
  · obtain ⟨name, hk, hd⟩ := exists_of_bind_eq_ok hd
    obtain ⟨chosen, hc, hd⟩ := exists_of_bind_eq_ok hd
    obtain ⟨read, hp, hd⟩ := exists_of_bind_eq_ok hd
    obtain ⟨_, -, hd⟩ := exists_of_bind_eq_ok hd
    obtain rfl := Except.ok.inj hd
    exact hmember hb hk hc hp
  · cases hd
  · cases hd
  · cases hd
  · obtain ⟨name, hk, hd⟩ := exists_of_bind_eq_ok hd
    obtain ⟨chosen, hc, hp⟩ := exists_of_bind_eq_ok hd
    exact hmember hb hk hc hp
  · cases hd
  · exact absurd hd (refuse_ne_ok _ _ _)

/-- A variant that is told by its name is read back. -/
theorem variant_text {name : String} {a : α} (h : choose name = .ok (.none a)) :
    variant choose source (.text (.ok name)) = .ok a := by
  rw [variant]
  change (choose name >>= Decode.bareVariant) = _
  rw [h]
  rfl

/-- A variant with data is read back when its data are. -/
theorem variant_member {name : String} {decode : Decoder α} {node : Node} {a : α}
    (hc : choose name = .ok (.data decode)) (hd : decode source node = .ok a) :
    variant choose source (.object [(.ok name, node)] none) = .ok a := by
  cases source with
  | text =>
    rw [variant]
    change (choose name >>= fun chosen ↦ Decode.payload .text node chosen >>= fun a ↦
      variantEnding [] none >>= fun _ ↦ .ok a) = _
    rw [hc]
    change (decode .text node >>= _) = _
    rw [hd]
    rfl
  | value =>
    rw [variant]
    change (choose name >>= Decode.payload .value node) = _
    rw [hc]
    exact hd

end Variant

end LoanClosing.Json.Decode
