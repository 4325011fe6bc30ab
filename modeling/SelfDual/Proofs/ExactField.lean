import Mathlib.Algebra.BigOperators.Fin
import Mathlib.Analysis.Real.Sqrt
import Mathlib.Tactic.FieldSimp
import Mathlib.Tactic.LinearCombination
import Mathlib.Tactic.Linarith
import Mathlib.Tactic.Positivity
import Mathlib.Tactic.Ring
import SelfDual.Scalar
/-!
**Exact scalars.**

The method is written for any type of scalars.  This module gives its exact reading: the scalars
are an ordered field in which nonnegative numbers have square roots, every number is finite, and
the only exception that an operation can raise is a division by zero.

Main definitions:

* `ExactField` — an ordered field with square roots; the reals are one;
* `ExactField.instScalar` — its operations as those of a scalar.

Main results:

* `Exception.raisedBy_exact` — **only a division by zero raises an exception**;
* `Scalar.least_exact`, `Scalar.greatest_exact`, `Scalar.sum_exact` — the rules of the library are
  the minimum, the maximum and the sum of the field;
* `Scalar.quotient_of_ne` — a quotient of plain numbers succeeds for a divisor other than zero.
-/

set_option autoImplicit false

namespace SelfDual

/-! ### Ordered fields with square roots -/

/-- An ordered field in which every nonnegative number has a square root. -/
class ExactField (K : Type) extends Field K, LinearOrder K, IsStrictOrderedRing K where
  sqrt : K → K
  sqrt_nonneg : ∀ a, 0 ≤ a → 0 ≤ sqrt a
  sqrt_mul_self : ∀ a, 0 ≤ a → sqrt a * sqrt a = a

/-- The real numbers. -/
noncomputable instance ExactField.instReal : ExactField ℝ where
  sqrt := Real.sqrt
  sqrt_nonneg a _ := Real.sqrt_nonneg a
  sqrt_mul_self _ h := Real.mul_self_sqrt h

/-- The operations of the field; there are no infinities and no NaN. -/
instance ExactField.instScalar {K : Type} [ExactField K] : Scalar K where
  decidableLT := inferInstance
  decidableLE := inferInstance
  ofNat n := n
  abs a := |a|
  sqrt := ExactField.sqrt
  square a := a * a
  isFinite _ := true
  isNaN _ := false
  isFinite_zero := rfl
  isFinite_one := rfl

variable {K : Type} [ExactField K]

namespace ExactField

/-- The square root of a positive number is positive. -/
theorem sqrt_pos {a : K} (h : 0 < a) : 0 < sqrt a := by
  refine lt_of_le_of_ne (sqrt_nonneg a h.le) fun h0 => ?_
  have : sqrt a * sqrt a = a := sqrt_mul_self a h.le
  rw [← h0, mul_zero] at this
  exact h.ne this

/-- A nonnegative number is the root of its square times another number's root. -/
theorem sqrt_sq_mul {t a : K} (ht : 0 ≤ t) (ha : 0 ≤ a) : sqrt (t * t * a) = t * sqrt a := by
  have hp : 0 ≤ t * t * a := mul_nonneg (mul_nonneg ht ht) ha
  -- Both sides are nonnegative, so it is enough that their squares agree.
  refine (mul_self_inj (sqrt_nonneg _ hp) (mul_nonneg ht (sqrt_nonneg a ha))).1 ?_
  rw [sqrt_mul_self _ hp, mul_mul_mul_comm, sqrt_mul_self a ha]

end ExactField

/-! ### The rules of the library -/

namespace Scalar

@[simp] theorem isFinite_exact (a : K) : Scalar.isFinite a = true := rfl

@[simp] theorem isNaN_exact (a : K) : Scalar.isNaN a = false := rfl

@[simp] theorem abs_exact (a : K) : Scalar.abs a = |a| := rfl

@[simp] theorem square_exact (a : K) : Scalar.square a = a * a := rfl

@[simp] theorem ofNat_exact (n : ℕ) : (Scalar.ofNat n : K) = n := rfl

@[simp] theorem sqrt_exact (a : K) : Scalar.sqrt a = ExactField.sqrt a := rfl

@[simp] theorem isZero_exact (a : K) : Scalar.isZero a = decide (a = 0) := by
  rw [Scalar.isZero, decide_eq_decide]
  exact le_antisymm_iff.symm

@[simp] theorem least_exact (a b : K) : Scalar.least a b = min a b := by
  rw [Scalar.least, min_comm, min_def_lt]

@[simp] theorem greatest_exact (a b : K) : Scalar.greatest a b = max a b := by
  rw [Scalar.greatest, max_def_lt]

theorem half_exact : (Scalar.half : K) = 1 / 2 := by
  have h : (Scalar.half : K) = 1 / (1 + 1) := rfl
  rw [h, one_add_one_eq_two]

theorem sum_exact (n : ℕ) (f : ℕ → K) : Scalar.sum n f = ∑ i : Fin n, f i := by
  induction n with
  | zero => rfl
  | succ n ih => rw [Scalar.sum_succ, ih, Fin.sum_univ_castSucc]; rfl

/-- A quotient of plain numbers with a divisor other than zero. -/
theorem quotient_of_ne {a b : K} (h : b ≠ 0) : Scalar.quotient a b = .ok (a / b) := by
  simp [Scalar.quotient, h]

end Scalar

/-! ### Exceptions -/

/-- **Only a division by zero raises an exception.** -/
theorem Exception.raisedBy_exact (e : Exception) (op : Operation) (a b r : K) :
    e.raisedBy op a b r = (decide (e = .zeroDivide) && (op == .divide && decide (b = 0))) := by
  cases e <;> simp [Exception.raisedBy]

/-- An operation whose operands do not divide by zero. -/
def Operation.Defined (op : Operation) (b : K) : Prop := op = .divide → b ≠ 0

theorem Operation.defined_of_ne {op : Operation} (h : op ≠ .divide) (b : K) : op.Defined b :=
  fun hd => absurd hd h

/-- A defined operation raises nothing. -/
theorem Exception.raisedBy_of_defined {op : Operation} {b : K} (h : op.Defined b) (e : Exception)
    (a r : K) : e.raisedBy op a b r = false := by
  rw [raisedBy_exact]
  by_cases hd : op = .divide
  · simp [h hd]
  · simp [hd]

/-- A defined operation between single numbers succeeds. -/
theorem Traps.combine_of_defined (traps : Traps) {op : Operation} (a : K) {b : K}
    (h : op.Defined b) : traps.combine op a b = .ok (op.eval a b) :=
  Traps.guard_of_forall _ _ _ _ _ fun e => e.raisedBy_of_defined h a _

end SelfDual
