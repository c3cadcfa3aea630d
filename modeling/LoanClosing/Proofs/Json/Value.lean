import LoanClosing.Proofs.Json.Bounds
import LoanClosing.Proofs.Table

/-!
# Values that fit into a text

A value fits at a level of nesting if no container in it is nested too deep and its whole numbers
are of sixty-four bits. Whatever value is read from a text fits where it stood, and its objects are
in byte order; a value with objects in byte order is read back as it is.
-/

namespace LoanClosing.Json

/-- Whether a value fits into a text at a level of nesting. -/
inductive Fits : Nat → Json → Prop
  | null {level : Nat} : Fits level .null
  | bool {level : Nat} {b : Bool} : Fits level (.bool b)
  | number {level : Nat} {n : Number} (h : ∀ k, n = .integer k → Number.InRange k) :
      Fits level (.number n)
  | text {level : Nat} {s : String} : Fits level (.text s)
  | array {level : Nat} {items : List Json} (h : level < Node.maxDepth)
      (hitems : ∀ item ∈ items, Fits (level + 1) item) : Fits level (.array items)
  | object {level : Nat} {members : List (String × Json)} (h : level < Node.maxDepth)
      (hmembers : ∀ member ∈ members, Fits (level + 1) member.2) : Fits level (.object members)

/-- Whether all objects in a value are in byte order of their keys, each key once. -/
inductive Sorted : Json → Prop
  | null : Sorted .null
  | bool {b : Bool} : Sorted (.bool b)
  | number {n : Number} : Sorted (.number n)
  | text {s : String} : Sorted (.text s)
  | array {items : List Json} (hitems : ∀ item ∈ items, Sorted item) : Sorted (.array items)
  | object {members : List (String × Json)} (hkeys : (Table.keys members).Pairwise (· < ·))
      (hmembers : ∀ member ∈ members, Sorted member.2) : Sorted (.object members)

/-! ### What is read -/

section Bind

variable {ε α β : Type} {x : Except ε α} {f : α → Except ε β} {b : β}

/-- What a reader in two steps has read. -/
theorem exists_of_bind_eq_ok (h : x >>= f = .ok b) : ∃ a, x = .ok a ∧ f a = .ok b := by
  cases x with
  | error => cases h
  | ok a => exact ⟨a, rfl, h⟩

/-- What a reader of something else has read. -/
theorem exists_of_map_eq_ok {f : α → β} (h : x.map f = .ok b) : ∃ a, x = .ok a ∧ f a = b := by
  cases x with
  | error => cases h
  | ok a => exact ⟨a, rfl, Except.ok.inj h⟩

end Bind

open Node Decode

mutual

/-- A value read from a bounded tree fits where the tree stands. -/
theorem fits_valueOf {level : Nat} : {node : Node} → Bounded level node → {j : Json} →
    valueOf node = .ok j → Fits level j ∧ Sorted j
  | .null, _, _, h => Except.ok.inj h ▸ ⟨.null, .null⟩
  | .bool b, _, _, h => Except.ok.inj h ▸ ⟨.bool, .bool⟩
  | .number value, hb, _, h => by
    obtain ⟨n, hn, rfl⟩ := exists_of_map_eq_ok h
    cases hb with
    | number hr => exact ⟨.number fun k hk ↦ hr k (hk ▸ hn), .number⟩
  | .text value, _, _, h => by
    obtain ⟨s, -, rfl⟩ := exists_of_map_eq_ok h
    exact ⟨.text, .text⟩
  | .array nodes fault, hb, _, h => by
    obtain ⟨items, hitems, h⟩ := exists_of_bind_eq_ok h
    obtain ⟨_, -, h⟩ := exists_of_bind_eq_ok h
    obtain rfl := Except.ok.inj h
    cases hb with
    | array hl hnodes =>
      have hall := fits_valuesOf hnodes hitems
      exact ⟨.array hl fun item hi ↦ (hall item hi).1, .array fun item hi ↦ (hall item hi).2⟩
  | .object nodes fault, hb, _, h => by
    obtain ⟨members, hmembers, h⟩ := exists_of_bind_eq_ok h
    obtain ⟨_, -, h⟩ := exists_of_bind_eq_ok h
    obtain rfl := Except.ok.inj h
    cases hb with
    | object hl hnodes =>
      have hall := fits_membersOf hnodes hmembers
      exact ⟨.object hl fun member hm ↦ (hall member (Table.mem_of_mem_sorted hm)).1,
        .object (Table.pairwise_keys_sorted members) fun member hm ↦
          (hall member (Table.mem_of_mem_sorted hm)).2⟩
  | .deep _, _, _, h => nomatch h
  | .broken .., _, _, h => nomatch h

theorem fits_valuesOf {level : Nat} : {nodes : List Node} →
    (∀ node ∈ nodes, Bounded level node) → {items : List Json} → valuesOf nodes = .ok items →
      ∀ item ∈ items, Fits level item ∧ Sorted item
  | [], _, _, h => Except.ok.inj h ▸ nofun
  | node :: nodes, hb, _, h => by
    have ⟨hnode, hnodes⟩ := List.forall_mem_cons.1 hb
    obtain ⟨item, hitem, h⟩ := exists_of_bind_eq_ok h
    obtain ⟨items, hitems, h⟩ := exists_of_bind_eq_ok h
    obtain rfl := Except.ok.inj h
    exact List.forall_mem_cons.2 ⟨fits_valueOf hnode hitem, fits_valuesOf hnodes hitems⟩

theorem fits_membersOf {level : Nat} : {nodes : List (Key × Node)} →
    (∀ key node, (.ok key, node) ∈ nodes → Bounded level node) →
      {members : List (String × Json)} → membersOf nodes = .ok members →
        ∀ member ∈ members, Fits level member.2 ∧ Sorted member.2
  | [], _, _, h => Except.ok.inj h ▸ nofun
  | (key, node) :: nodes, hb, _, h => by
    obtain ⟨name, hkey, h⟩ := exists_of_bind_eq_ok h
    obtain ⟨value, hvalue, h⟩ := exists_of_bind_eq_ok h
    obtain ⟨members, hmembers, h⟩ := exists_of_bind_eq_ok h
    obtain rfl := Except.ok.inj h
    exact List.forall_mem_cons.2
      ⟨fits_valueOf (hb name node (hkey ▸ List.mem_cons_self)) hvalue,
        fits_membersOf (fun key node hm ↦ hb key node (List.mem_cons_of_mem _ hm)) hmembers⟩

end

/-! ### What is read back -/

mutual

/-- A value with objects in byte order is read back as it is. -/
theorem valueOf_ofJson : {j : Json} → Sorted j → valueOf (ofJson j) = .ok j
  | .null, _ | .bool _, _ | .number _, _ | .text _, _ => rfl
  | .array items, h => by
    cases h with
    | array hitems => rw [ofJson, valueOf, valuesOf_ofItems hitems]; rfl
  | .object members, h => by
    cases h with
    | object hkeys hmembers =>
      rw [ofJson, valueOf, membersOf_ofMembers hmembers]
      exact congrArg (fun table ↦ Except.ok (Json.object table)) (Table.sorted_of_pairwise hkeys)

theorem valuesOf_ofItems : {items : List Json} →
    (∀ item ∈ items, Sorted item) → valuesOf (ofItems items) = .ok items
  | [], _ => rfl
  | item :: items, h => by
    have ⟨hitem, hitems⟩ := List.forall_mem_cons.1 h
    rw [ofItems, valuesOf, valueOf_ofJson hitem, valuesOf_ofItems hitems]
    rfl

theorem membersOf_ofMembers : {members : List (String × Json)} →
    (∀ member ∈ members, Sorted member.2) → membersOf (Node.ofMembers members) = .ok members
  | [], _ => rfl
  | (key, value) :: members, h => by
    have ⟨hvalue, hmembers⟩ := List.forall_mem_cons.1 h
    rw [Node.ofMembers, membersOf, valueOf_ofJson hvalue, membersOf_ofMembers hmembers]
    rfl

end

mutual

/-- A value that fits is not nested too deep. -/
theorem Fits.depth_le {level : Nat} : {j : Json} → Fits level j → j.depth ≤ maxDepth - level
  | .null, _ | .bool _, _ | .number _, _ | .text _, _ => Nat.zero_le _
  | .array items, h => by
    cases h with
    | array hl hitems =>
      have := depthOfItems_le hitems
      rw [depth]
      omega
  | .object members, h => by
    cases h with
    | object hl hmembers =>
      have := depthOfMembers_le hmembers
      rw [depth]
      omega

theorem depthOfItems_le {level : Nat} : {items : List Json} →
    (∀ item ∈ items, Fits level item) → depthOfItems items ≤ maxDepth - level
  | [], _ => Nat.zero_le _
  | item :: items, h => by
    have ⟨hitem, hitems⟩ := List.forall_mem_cons.1 h
    exact Nat.max_le.2 ⟨hitem.depth_le, depthOfItems_le hitems⟩

theorem depthOfMembers_le {level : Nat} : {members : List (String × Json)} →
    (∀ member ∈ members, Fits level member.2) → depthOfMembers members ≤ maxDepth - level
  | [], _ => Nat.zero_le _
  | (key, value) :: members, h => by
    have ⟨hvalue, hmembers⟩ := List.forall_mem_cons.1 h
    exact Nat.max_le.2 ⟨hvalue.depth_le, depthOfMembers_le hmembers⟩

end

mutual

/-- The whole numbers in a value that fits are of sixty-four bits. -/
theorem Fits.inRange {level : Nat} {n : Int} : {j : Json} → Fits level j →
    .integer n ∈ j.numbers → Number.InRange n
  | .number value, h, hn => by
    cases h with
    | number hr => exact hr n (List.mem_singleton.1 hn).symm
  | .array items, h, hn => by
    cases h with
    | array _ hitems => exact inRange_of_mem_numbersOfItems hitems hn
  | .object members, h, hn => by
    cases h with
    | object _ hmembers => exact inRange_of_mem_numbersOfMembers hmembers hn

theorem inRange_of_mem_numbersOfItems {level : Nat} {n : Int} : {items : List Json} →
    (∀ item ∈ items, Fits level item) → .integer n ∈ numbersOfItems items → Number.InRange n
  | item :: items, h, hn => by
    have ⟨hitem, hitems⟩ := List.forall_mem_cons.1 h
    rcases List.mem_append.1 hn with hn | hn
    · exact hitem.inRange hn
    · exact inRange_of_mem_numbersOfItems hitems hn

theorem inRange_of_mem_numbersOfMembers {level : Nat} {n : Int} :
    {members : List (String × Json)} → (∀ member ∈ members, Fits level member.2) →
      .integer n ∈ numbersOfMembers members → Number.InRange n
  | (key, value) :: members, h, hn => by
    have ⟨hvalue, hmembers⟩ := List.forall_mem_cons.1 h
    rcases List.mem_append.1 hn with hn | hn
    · exact hvalue.inRange hn
    · exact inRange_of_mem_numbersOfMembers hmembers hn

end

/-! ### Writing and reading -/

section Text

variable {α : Type} {decode : Decoder α} {j : Json} {level : Nat}

/-- The numbers in a value that fits are faithful when those with a fraction or an exponent read
back. -/
theorem Fits.faithful (h : Fits level j)
    (hf : ∀ x, .float x ∈ j.numbers → (Number.float x).ReadsBack) : ∀ n ∈ j.numbers, n.Faithful
  | .integer _, hn => Number.faithful_integer (h.inRange hn)
  | .float x, hn => (hf x hn).faithful

/-- Reading what is written in either layout is reading the value. -/
theorem Fits.decodeString_compact (h : Fits 0 j)
    (hf : ∀ x, .float x ∈ j.numbers → (Number.float x).ReadsBack) :
    decodeString decode j.compact = decode .text (.ofJson j) :=
  Json.decodeString_compact (h.faithful hf) h.depth_le

theorem Fits.decodeString_pretty (h : Fits 0 j)
    (hf : ∀ x, .float x ∈ j.numbers → (Number.float x).ReadsBack) :
    decodeString decode j.pretty = decode .text (.ofJson j) :=
  Json.decodeString_pretty (h.faithful hf) h.depth_le

end Text

end LoanClosing.Json
