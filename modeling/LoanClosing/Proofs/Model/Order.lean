import LoanClosing.Model.Value

/-!
# Equality and order of the values

Amounts compare by value, dates in time. Each of these orders turns around when its two sides do,
and calls equal exactly what equality calls equal. Equality of whole values, which looks into lists,
maps and objects, holds of every value and itself and does not depend on the side.
-/

namespace LoanClosing

namespace Decimal

/-- The order of two amounts turns around with its sides. -/
theorem swap_order (a b : Decimal) : (a.order b).swap = b.order a := by
  rw [order, order]
  exact Std.OrientedOrd.eq_swap.symm

/-- The order calls two amounts equal when they have the same value. -/
theorem order_eq_iff (a b : Decimal) : a.order b = .eq ↔ a.sameValue b = true := by
  rw [order, sameValue, beq_iff_eq]
  exact Std.LawfulEqOrd.compare_eq_iff_eq

theorem sameValue_self (a : Decimal) : a.sameValue a = true := by
  rw [sameValue, beq_self_eq_true]

theorem sameValue_comm (a b : Decimal) : a.sameValue b = b.sameValue a := by
  rw [sameValue, sameValue, Bool.beq_comm]

end Decimal

namespace Date

/-- The order of two dates turns around with its sides. -/
theorem swap_order (a b : Date) : (a.order b).swap = b.order a := by
  rw [order, order, Ordering.swap_then, Ordering.swap_then, Std.OrientedOrd.eq_swap (a := b.year),
    Std.OrientedOrd.eq_swap (a := b.month), Std.OrientedOrd.eq_swap (a := b.day)]

/-- The order calls no two dates equal but a date and itself. -/
theorem order_eq_iff (a b : Date) : a.order b = .eq ↔ a = b := by
  obtain ⟨year, month, day, _⟩ := a
  obtain ⟨year', month', day', _⟩ := b
  rw [order, Ordering.then_eq_eq, Ordering.then_eq_eq, Std.LawfulEqOrd.compare_eq_iff_eq,
    Std.LawfulEqOrd.compare_eq_iff_eq, Std.LawfulEqOrd.compare_eq_iff_eq, Date.mk.injEq]

end Date

namespace Value

mutual

/-- Every value agrees with itself. -/
theorem agrees_self : (value : Value) → value.agrees value = true
  | .null => by rw [agrees]
  | .bool flag => by rw [agrees, beq_self_eq_true]
  | .number amount => by rw [agrees, amount.sameValue_self]
  | .text s => by rw [agrees, beq_self_eq_true]
  | .date day => by rw [agrees, beq_self_eq_true]
  | .enum choice => by rw [agrees, beq_self_eq_true]
  | .list items => by rw [agrees, agreesItems_self items]
  | .map entries => by rw [agrees, agreesEntries_self entries]
  | .object members => by rw [agrees, agreesEntries_self members]

theorem agreesItems_self : (items : List Value) → agreesItems items items = true
  | [] => by rw [agreesItems]
  | item :: items => by rw [agreesItems, agrees_self item, agreesItems_self items, Bool.and_self]

theorem agreesEntries_self : (entries : List (String × Value)) →
    agreesEntries entries entries = true
  | [] => by rw [agreesEntries]
  | (key, value) :: entries => by
    rw [agreesEntries, beq_self_eq_true, agrees_self value, agreesEntries_self entries]
    rfl

end

mutual

/-- Whether two values agree does not depend on the side. -/
theorem agrees_comm : (a b : Value) → a.agrees b = b.agrees a
  | .null, b => by cases b <;> simp [agrees]
  | .bool _, b => by cases b <;> simp [agrees, Bool.beq_comm]
  | .number a, b => by cases b <;> simp [agrees, a.sameValue_comm]
  | .text _, b => by cases b <;> simp [agrees, Bool.beq_comm]
  | .date _, b => by cases b <;> simp [agrees, Bool.beq_comm]
  | .enum _, b => by cases b <;> simp [agrees, Bool.beq_comm]
  | .list as, b => by cases b <;> simp [agrees, agreesItems_comm as]
  | .map as, b => by cases b <;> simp [agrees, agreesEntries_comm as]
  | .object as, b => by cases b <;> simp [agrees, agreesEntries_comm as]

theorem agreesItems_comm : (as bs : List Value) → agreesItems as bs = agreesItems bs as
  | [], bs => by cases bs <;> simp [agreesItems]
  | a :: as, bs => by
    cases bs with
    | nil => simp [agreesItems]
    | cons b bs => rw [agreesItems, agreesItems, agrees_comm a b, agreesItems_comm as bs]

theorem agreesEntries_comm : (as bs : List (String × Value)) →
    agreesEntries as bs = agreesEntries bs as
  | [], bs => by cases bs <;> simp [agreesEntries]
  | (k, a) :: as, bs => by
    cases bs with
    | nil => simp [agreesEntries]
    | cons entry bs =>
      rw [agreesEntries, agreesEntries, agrees_comm a entry.2, agreesEntries_comm as bs,
        Bool.beq_comm]

end

/-- Every value is the same as itself. -/
theorem sameAs_self (value : Value) : value.sameAs value = true := agrees_self value.arranged

/-- Whether two values are the same does not depend on the side. -/
theorem sameAs_comm (a b : Value) : a.sameAs b = b.sameAs a := agrees_comm a.arranged b.arranged

end Value

end LoanClosing
