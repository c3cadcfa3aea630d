import LoanClosing.Condition.Expr
import LoanClosing.Proofs.Model.Order

/-!
# Comparing values of any two kinds

Equality and order convert between kinds by tables of their own: a text is read as an amount or a
date where the other side is one, and a choice counts by its number against an amount and by its
names against a text. The tables agree: where two values have an order, it calls them equal exactly
when equality does, and it turns around with its sides. So conditions that compare the same two
values never contradict each other.
-/

namespace LoanClosing.Condition

/-! ## Texts -/

theorem orderText_eq_compare (a b : String) : orderText a b = compare a b := rfl

theorem swap_orderText (a b : String) : (orderText a b).swap = orderText b a := by
  rw [orderText_eq_compare, orderText_eq_compare]
  exact Std.OrientedOrd.eq_swap.symm

/-- The order calls no two texts equal but a text and itself. -/
theorem orderText_eq_iff (a b : String) : orderText a b = .eq ↔ a = b := by
  rw [orderText_eq_compare]
  exact Std.LawfulEqOrd.compare_eq_iff_eq

/-! ## Equality -/

/-- Every value equals itself. -/
theorem equals_self (value : Value) : equals value value = true := by
  cases value with
  | null => rfl
  | number amount => exact amount.sameValue_self
  | date day => exact beq_self_eq_true day
  | enum choice => exact beq_self_eq_true choice.name
  | bool _ | text _ | list _ | map _ | object _ => exact Value.sameAs_self _

/-- Whether two values are equal does not depend on the side. -/
theorem equals_comm (a b : Value) : equals a b = equals b a := by
  cases a with
  | null => cases b <;> rfl
  | number a => cases b <;> simp [equals, a.sameValue_comm, Value.sameAs_comm (.number a)]
  | date day => cases b <;> simp [equals, Bool.beq_comm, Value.sameAs_comm (.date day)]
  | enum choice => cases b <;> simp [equals, Bool.beq_comm, Value.sameAs_comm (.enum choice)]
  | text s => cases b <;> simp [equals, Value.sameAs_comm (.text s)]
  | bool flag => cases b <;> simp [equals, Value.sameAs_comm (.bool flag)]
  | list items => cases b <;> simp [equals, Value.sameAs_comm (.list items)]
  | map entries => cases b <;> simp [equals, Value.sameAs_comm (.map entries)]
  | object members => cases b <;> simp [equals, Value.sameAs_comm (.object members)]

/-! ## Order -/

/-- The order of two values turns around with its sides; where there is none, there is none either
way. -/
theorem map_swap_order (a b : Value) : (order a b).map Ordering.swap = order b a := by
  cases a <;> cases b <;>
    simp only [order, Option.map_none, Option.map_some, Option.map_map, Function.comp_def,
      Decimal.swap_order, Date.swap_order, swap_orderText]

/-- An order that is read off a part of a value calls equal what a test finds in that part. -/
theorem any_of_map_eq_some {α : Type} {part : Option α} {f : α → Ordering} {test : α → Bool}
    {o : Ordering} (h : part.map f = some o) (ht : ∀ x, test x = true ↔ f x = .eq) :
    part.any test = (o == .eq) := by
  obtain ⟨x, rfl, rfl⟩ := Option.map_eq_some_iff.mp h
  rw [Option.any_some, Bool.eq_iff_iff, ht, beq_iff_eq]

theorem writesDate_eq_any (s : String) (date : Date) :
    writesDate s date = (Date.read? s).any (· == date) := by
  rw [writesDate]
  cases Date.read? s <;> rfl

/-- Where two values have an order, they are equal when it says so and not otherwise. -/
theorem equals_of_order {a b : Value} {o : Ordering} (h : order a b = some o) :
    equals a b = (o == .eq) := by
  revert h
  fun_cases order a b with
  | case1 a b => -- two amounts
    rintro ⟨⟩
    rw [equals, Bool.eq_iff_iff, beq_iff_eq, a.order_eq_iff]
  | case2 a s => -- an amount and a text
    intro h
    exact any_of_map_eq_some h fun d ↦ (a.order_eq_iff d).symm
  | case3 s b => -- a text and an amount
    intro h
    exact any_of_map_eq_some h fun d ↦ by rw [b.sameValue_comm, ← d.order_eq_iff]
  | case4 a b => -- two dates
    rintro ⟨⟩
    rw [equals, Bool.eq_iff_iff, beq_iff_eq, beq_iff_eq, a.order_eq_iff]
  | case5 a s => -- a date and a text
    intro h
    rw [equals, writesDate_eq_any]
    exact any_of_map_eq_some h fun day ↦ by rw [a.order_eq_iff, beq_iff_eq, eq_comm]
  | case6 s b => -- a text and a date
    intro h
    rw [equals, writesDate_eq_any]
    exact any_of_map_eq_some h fun day ↦ by rw [day.order_eq_iff, beq_iff_eq]
  | case7 s t => -- two texts
    rintro ⟨⟩
    rw [Bool.eq_iff_iff, beq_iff_eq, orderText_eq_iff]
    exact beq_iff_eq
  | case8 choice b => -- a choice and an amount
    intro h
    exact any_of_map_eq_some h fun n ↦ ((Decimal.ofInt64 n).order_eq_iff b).symm
  | case9 a choice => -- an amount and a choice
    intro h
    exact any_of_map_eq_some h fun n ↦ by rw [Decimal.sameValue_comm, ← a.order_eq_iff]
  | case10 => exact nofun

/-! ## Comparisons -/

/-- Where two values have an order, every comparison of them is read off it. -/
theorem holdsBetween_of_order {a b : Value} {o : Ordering} (h : order a b = some o)
    (comparison : Comparison) : holdsBetween comparison a b = .ok (comparison.accepts o) := by
  cases comparison with
  | equal => rw [holdsBetween, equals_of_order h, Comparison.accepts]
  | unequal => rw [holdsBetween, equals_of_order h, Comparison.accepts, bne]
  | less | atMost | greater | atLeast => rw [holdsBetween, h] <;> exact nofun

/-- The comparisons that ask for an order. -/
def Comparison.ofOrder : List Comparison := [.less, .atMost, .greater, .atLeast]

/-- Where two values have no order, each comparison that asks for one fails. -/
theorem holdsBetween_of_order_eq_none {a b : Value} (h : order a b = none) :
    Comparison.ofOrder.map (holdsBetween · a b) =
      List.replicate 4 (.error (.incomparable a.kind b.kind)) := by
  simp only [Comparison.ofOrder, List.map_cons, List.map_nil, holdsBetween, h]
  rfl

/-- Every value equals itself, whether two are equal does not depend on the side, and they are
unequal when they are not equal. The comparisons that ask for an order all fail either way, because
the two values have none; or all of them have an answer either way. Then the first value is less,
equal or greater, and only one of the three; `atMost` and `atLeast` are what they say; and what is
less one way is greater the other way. -/
theorem holdsBetween_coherent (a b : Value) :
    holdsBetween .equal a a = .ok true ∧
    ∃ equal, holdsBetween .equal a b = .ok equal ∧ holdsBetween .equal b a = .ok equal ∧
      holdsBetween .unequal a b = .ok !equal ∧
      (Comparison.ofOrder.map (holdsBetween · a b) =
          List.replicate 4 (.error (.incomparable a.kind b.kind)) ∧
        Comparison.ofOrder.map (holdsBetween · b a) =
          List.replicate 4 (.error (.incomparable b.kind a.kind)) ∨
        ∃ less greater, [less, equal, greater].count true = 1 ∧
          Comparison.ofOrder.map (holdsBetween · a b) =
            [less, less || equal, greater, greater || equal].map .ok ∧
          Comparison.ofOrder.map (holdsBetween · b a) =
            [greater, greater || equal, less, less || equal].map .ok) := by
  refine ⟨by rw [holdsBetween, equals_self], equals a b, rfl, ?_, rfl, ?_⟩
  · rw [holdsBetween, equals_comm]
  · have hswap := map_swap_order a b
    cases ho : order a b with
    | none =>
      rw [ho, Option.map_none] at hswap
      exact .inl ⟨holdsBetween_of_order_eq_none ho, holdsBetween_of_order_eq_none hswap.symm⟩
    | some o =>
      rw [ho, Option.map_some] at hswap
      refine .inr ⟨o == .lt, o == .gt, ?_, ?_, ?_⟩
      · rw [equals_of_order ho]
        cases o <;> rfl
      · rw [equals_of_order ho, Comparison.ofOrder]
        simp only [List.map_cons, List.map_nil, holdsBetween_of_order ho]
        cases o <;> rfl
      · rw [equals_of_order ho, Comparison.ofOrder]
        simp only [List.map_cons, List.map_nil, holdsBetween_of_order hswap.symm]
        cases o <;> rfl

/-- A text with an exponent equals the number that it writes. -/
example : holdsBetween .equal (.text " 3e1 ") (.number (.ofInt64 30)) = .ok true := by
  rfl

end LoanClosing.Condition
