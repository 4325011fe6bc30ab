import Mathlib.Algebra.Order.BigOperators.Ring.Finset
import SelfDual.Proofs.HomogeneousModel
/-!
**Weak duality with residuals.**

A feasible point of the linear program, paired with the dual residual of a point of the model, gives
the difference of the two objectives up to the reduced costs.  Where the reduced costs are not
negative, the multipliers bound the cost of every feasible point from below, with an error that is
as large as the dual residual and the feasible point are long.

Main definitions:

* `Problem.Feasible` — the feasible points of a linear program.

Main results:

* `ExactField.dotProduct_le_norm` — the inequality of Cauchy and Schwarz;
* `Problem.Feasible.dotProduct_dual` — **the pairing of a feasible point with a dual residual**;
* `Problem.Feasible.target_le` — **weak duality** at a point with a dual residual.
-/

set_option autoImplicit false

open Matrix

namespace SelfDual

variable {K : Type} [ExactField K]

/-! ### Norms -/

namespace ExactField

variable {n : ℕ}

theorem norm_nonneg (v : Fin n → K) : 0 ≤ norm v :=
  sqrt_nonneg _ (dotProduct_self_nonneg v)

theorem norm_mul_self (v : Fin n → K) : norm v * norm v = v ⬝ᵥ v :=
  sqrt_mul_self _ (dotProduct_self_nonneg v)

@[simp] theorem norm_neg (v : Fin n → K) : norm (-v) = norm v := by
  rw [norm, neg_dotProduct_neg, norm]

/-- The inequality of Cauchy and Schwarz. -/
theorem dotProduct_le_norm (u v : Fin n → K) : u ⬝ᵥ v ≤ norm u * norm v := by
  have hsquare : (u ⬝ᵥ v) ^ 2 ≤ (norm u * norm v) ^ 2 := by
    calc (u ⬝ᵥ v) ^ 2 ≤ (∑ i, u i ^ 2) * ∑ i, v i ^ 2 :=
          Finset.sum_mul_sq_le_sq_mul_sq Finset.univ u v
      _ = (u ⬝ᵥ u) * (v ⬝ᵥ v) := by simp only [dotProduct, pow_two]
      _ = (norm u * norm v) ^ 2 := by
          rw [← norm_mul_self u, ← norm_mul_self v]
          ring
  exact le_of_sq_le_sq hsquare (mul_nonneg (norm_nonneg u) (norm_nonneg v))

end ExactField

/-! ### Feasible points -/

namespace Problem

/-- **The feasible points** of a linear program. -/
structure Feasible (p : Problem K) (x : Fin p.n → K) : Prop where
  constraints : p.matrix *ᵥ x = p.target
  nonneg : ∀ i, 0 ≤ x i

namespace Feasible

variable {p : Problem K} {x : Fin p.n → K}

/-- **The pairing of a feasible point with a dual residual** is the difference of the objectives
less what the reduced costs take. -/
theorem dotProduct_dual (hx : p.Feasible x) (w : Point K p.m p.n) :
    x ⬝ᵥ w.dual p = w.tau * (p.cost ⬝ᵥ x) - p.target ⬝ᵥ w.y - x ⬝ᵥ w.z := by
  have hadjoint : x ⬝ᵥ (p.matrixᵀ *ᵥ w.y) = p.target ⬝ᵥ w.y := by
    rw [dotProduct_transpose_mulVec, hx.constraints, dotProduct_comm]
  rw [Point.dual, dotProduct_sub, dotProduct_sub, hadjoint, dotProduct_smul, smul_eq_mul,
    dotProduct_comm x p.cost]

/-- Reduced costs without a sign take nothing away. -/
theorem dotProduct_nonneg (hx : p.Feasible x) {z : Fin p.n → K} (hz : ∀ i, 0 ≤ z i) :
    0 ≤ x ⬝ᵥ z :=
  Finset.sum_nonneg fun i _ => mul_nonneg (hx.nonneg i) (hz i)

/-- **Weak duality** at a point with a dual residual. -/
theorem target_le (hx : p.Feasible x) {w : Point K p.m p.n} (hz : ∀ i, 0 ≤ w.z i) :
    p.target ⬝ᵥ w.y ≤
      w.tau * (p.cost ⬝ᵥ x) + ExactField.norm (w.dual p) * ExactField.norm x := by
  have hpair := hx.dotProduct_dual w
  have hreduced : 0 ≤ x ⬝ᵥ w.z := hx.dotProduct_nonneg hz
  have hnorm : (-w.dual p) ⬝ᵥ x ≤ ExactField.norm (w.dual p) * ExactField.norm x := by
    rw [← ExactField.norm_neg (w.dual p)]
    exact ExactField.dotProduct_le_norm _ _
  rw [neg_dotProduct, dotProduct_comm, hpair] at hnorm
  linarith

end Feasible

end Problem

end SelfDual
