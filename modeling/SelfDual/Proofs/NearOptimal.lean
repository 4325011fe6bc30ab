import SelfDual.Proofs.FirstIteration
import SelfDual.Proofs.WeakDuality
/-!
**Solutions are nearly optimal.**

A solve that has found a solution has three indicators within its tolerance.  Divided by `tau`, they
bound the residuals of the solution and the difference of the two objectives.  With weak duality the
objective exceeds that of no feasible point by more than these errors allow.

Main definitions:

* `NearOptimal` — a solution whose residuals and gap are within a tolerance.

Main results:

* `Point.norm_primal_solution`, `Point.norm_dual_solution` — the residuals of the solution at a
  point;
* `NearOptimal.objective_le` — **the objective against every feasible point**;
* `OnPath.nearOptimal` — a point that passes the test for a solution gives one;
* `optimal_nearly_optimal` — **a solve that ends with a solution** is nearly optimal.
-/

set_option autoImplicit false

open Matrix

namespace SelfDual

variable {K : Type} [ExactField K] {p : Problem K}

/-! ### The solution at a point -/

namespace Point

variable {w : Point K p.m p.n} {tol : K}

theorem primal_solution (htau : w.tau ≠ 0) :
    p.matrix *ᵥ (w.tau⁻¹ • w.x) - p.target = -(w.tau⁻¹ • w.primal p) := by
  rw [primal, smul_sub, inv_smul_smul₀ htau, mulVec_smul, neg_sub]

theorem dual_solution (htau : w.tau ≠ 0) :
    p.cost - p.matrixᵀ *ᵥ (w.tau⁻¹ • w.y) - w.tau⁻¹ • w.z = w.tau⁻¹ • w.dual p := by
  rw [dual, smul_sub, smul_sub, inv_smul_smul₀ htau, mulVec_smul]

/-- The constraints are missed by the primal residual over `tau`. -/
theorem norm_primal_solution (htau : 0 < w.tau) :
    ExactField.norm (p.matrix *ᵥ (w.tau⁻¹ • w.x) - p.target) =
      ExactField.norm (w.primal p) / w.tau := by
  rw [primal_solution htau.ne', ExactField.norm_neg, ExactField.norm_smul (inv_nonneg.2 htau.le),
    inv_mul_eq_div]

/-- The dual constraints are missed by the dual residual over `tau`. -/
theorem norm_dual_solution (htau : 0 < w.tau) :
    ExactField.norm (p.cost - p.matrixᵀ *ᵥ (w.tau⁻¹ • w.y) - w.tau⁻¹ • w.z) =
      ExactField.norm (w.dual p) / w.tau := by
  rw [dual_solution htau.ne', ExactField.norm_smul (inv_nonneg.2 htau.le), inv_mul_eq_div]

/-- The gap of the solution is that of the point over `tau`. -/
theorem gap_solution (htau : 0 < w.tau) :
    |p.cost ⬝ᵥ (w.tau⁻¹ • w.x) - p.target ⬝ᵥ (w.tau⁻¹ • w.y)| =
      |p.cost ⬝ᵥ w.x - p.target ⬝ᵥ w.y| / w.tau := by
  rw [dotProduct_smul, dotProduct_smul, ← smul_sub, smul_eq_mul, abs_mul,
    abs_of_pos (inv_pos.2 htau), inv_mul_eq_div]

theorem norm_primal_le (h : (w.indicators p).rhoP ≤ tol) :
    ExactField.norm (w.primal p) ≤ tol * max 1 (ExactField.norm (p.target - p.matrix *ᵥ 1)) := by
  rw [← p.primal_blindStart]
  exact (div_le_iff₀ (lt_max_of_lt_left one_pos)).1 h

theorem norm_dual_le (h : (w.indicators p).rhoD ≤ tol) :
    ExactField.norm (w.dual p) ≤ tol * max 1 (ExactField.norm (p.cost - 1)) := by
  rw [← p.dual_blindStart]
  exact (div_le_iff₀ (lt_max_of_lt_left one_pos)).1 h

theorem objectives_le (htau : 0 < w.tau) (h : (w.indicators p).rhoA ≤ tol) :
    |p.cost ⬝ᵥ w.x - p.target ⬝ᵥ w.y| ≤ tol * (w.tau + |p.target ⬝ᵥ w.y|) :=
  (div_le_iff₀ (add_pos_of_pos_of_nonneg htau (abs_nonneg _))).1 h

end Point

/-! ### Near optimality -/

/-- **A nearly optimal solution**: no coordinate is negative, the constraints and the dual
constraints are missed by no more than the tolerance times their residuals at the blind start over
`tau`, and the two objectives differ by the tolerance at most, relative to the second. -/
structure NearOptimal (p : Problem K) (tol tau : K) (x : Fin p.n → K) (y : Fin p.m → K)
    (z : Fin p.n → K) (objective : K) : Prop where
  x_nonneg : ∀ i, 0 ≤ x i
  z_nonneg : ∀ i, 0 ≤ z i
  primal : ExactField.norm (p.matrix *ᵥ x - p.target) ≤
    tol * max 1 (ExactField.norm (p.target - p.matrix *ᵥ 1)) / tau
  dual : ExactField.norm (p.cost - p.matrixᵀ *ᵥ y - z) ≤
    tol * max 1 (ExactField.norm (p.cost - 1)) / tau
  gap : |objective - p.target ⬝ᵥ y| ≤ tol * (1 + |p.target ⬝ᵥ y|)

/-- **The objective against every feasible point**: it exceeds the cost of none by more than the gap
and what the dual residual makes of the length of that point. -/
theorem NearOptimal.objective_le {tol tau objective : K} {x z : Fin p.n → K} {y : Fin p.m → K}
    (h : NearOptimal p tol tau x y z objective) {x' : Fin p.n → K} (hx' : p.Feasible x') :
    objective ≤ p.cost ⬝ᵥ x' + tol * (1 + |p.target ⬝ᵥ y|) +
      tol * max 1 (ExactField.norm (p.cost - 1)) / tau * ExactField.norm x' := by
  have hgap : objective - p.target ⬝ᵥ y ≤ tol * (1 + |p.target ⬝ᵥ y|) :=
    (le_abs_self _).trans h.gap
  -- Weak duality at the solution as a point with `tau = 1`.
  have hduality := hx'.target_le (w := ⟨x, y, z, 1, 0⟩) h.z_nonneg
  simp only [Point.dual, one_smul, one_mul] at hduality
  have herror : ExactField.norm (p.cost - p.matrixᵀ *ᵥ y - z) * ExactField.norm x' ≤
      tol * max 1 (ExactField.norm (p.cost - 1)) / tau * ExactField.norm x' :=
    mul_le_mul_of_nonneg_right h.dual (ExactField.norm_nonneg x')
  linarith

/-- **A point of a solve that passes the test for a solution** gives a nearly optimal one. -/
theorem OnPath.nearOptimal {o : Options K} {w : Point K p.m p.n} (h : OnPath p o w) {tol : K}
    (hsolved : (w.indicators p).isSolved tol = true) :
    NearOptimal p tol w.tau (w.tau⁻¹ • w.x) (w.tau⁻¹ • w.y) (w.tau⁻¹ • w.z)
      (p.cost ⬝ᵥ (w.tau⁻¹ • w.x)) := by
  have htau : 0 < w.tau := h.tau_pos
  have hinv : 0 ≤ w.tau⁻¹ := inv_nonneg.2 htau.le
  obtain ⟨hP, hD, hA⟩ := Indicators.isSolved_iff.1 hsolved
  constructor
  case x_nonneg => exact fun i => mul_nonneg hinv (h.nonneg.x i)
  case z_nonneg => exact fun i => mul_nonneg hinv (h.nonneg.z i)
  case primal =>
    rw [Point.norm_primal_solution htau]
    exact div_le_div_of_nonneg_right (Point.norm_primal_le hP) htau.le
  case dual =>
    rw [Point.norm_dual_solution htau]
    exact div_le_div_of_nonneg_right (Point.norm_dual_le hD) htau.le
  case gap =>
    have hscaled : |p.target ⬝ᵥ (w.tau⁻¹ • w.y)| = |p.target ⬝ᵥ w.y| / w.tau := by
      rw [dotProduct_smul, smul_eq_mul, abs_mul, abs_of_pos (inv_pos.2 htau), inv_mul_eq_div]
    rw [Point.gap_solution htau, hscaled, div_le_iff₀ htau]
    calc |p.cost ⬝ᵥ w.x - p.target ⬝ᵥ w.y|
        ≤ tol * (w.tau + |p.target ⬝ᵥ w.y|) := Point.objectives_le htau hA
      _ = tol * (1 + |p.target ⬝ᵥ w.y| / w.tau) * w.tau := by
          field_simp

/-! ### Solves that end with a solution -/

/-- **A solve that ends with a solution is nearly optimal.**  With `tau` that of the last point and
`x` the solution there, before small entries are set to zero, it meets the signs, the constraints,
the dual constraints and the equality of the objectives up to the tolerance, and what it returns for
the objective exceeds the cost of no feasible point by more than these errors allow. -/
theorem optimal_nearly_optimal (p : Problem K) (o : Options K) (callback : Option (Callback K))
    (clock : ℕ → K) (r : Result K) (hr : (solve p o callback clock).result = .ok r)
    (hstatus : r.status = .optimal) :
    ∃ (w : Point K p.m p.n) (x z : Fin p.n → K) (y : Fin p.m → K),
      (solve p o callback clock).advances.getLast?.map (·.point) = some w.iterate ∧
      0 < w.tau ∧ w.iterate.solution .on = .ok (.ofVector x) ∧
      r.x = snap o.tol (.ofVector x) ∧ r.y = .ofVector y ∧ r.z = .ofVector z ∧
      NearOptimal p o.tol w.tau x y z r.objective ∧
      ∀ x', p.Feasible x' → r.objective ≤ p.cost ⬝ᵥ x' + o.tol * (1 + |p.target ⬝ᵥ y|) +
        o.tol * max 1 (ExactField.norm (p.cost - 1)) / w.tau * ExactField.norm x' := by
  obtain ⟨w, hw⟩ := exists_decidedAt hr (by rw [hstatus]; decide) (by rw [hstatus]; decide)
  have hnear := hw.onPath.nearOptimal (hw.isSolved hstatus)
  rw [← hw.objective] at hnear
  exact ⟨w, w.tau⁻¹ • w.x, w.tau⁻¹ • w.z, w.tau⁻¹ • w.y, hw.last_point, hw.onPath.tau_pos,
    Point.solution_exact .on hw.onPath.tau_pos.ne', hw.x, hw.y, hw.z, hnear,
    fun x' hx' => hnear.objective_le hx'⟩

/-- After one iteration the identity has a solution that is nearly optimal. -/
theorem optimal_nearly_optimal_identityProgram :
    ∃ r, (solve (identityProgram : Problem ℝ) longStep none fun _ => 0).result = .ok r ∧
      r.status = .optimal ∧ ∃ (w : Point ℝ 1 1) (x z : Fin 1 → ℝ) (y : Fin 1 → ℝ),
        r.y = .ofVector y ∧ NearOptimal identityProgram (1 / 100) w.tau x y z r.objective := by
  obtain ⟨r, hr, hstatus, -⟩ := decidedAt_identityProgram
  obtain ⟨w, x, z, y, -, -, -, -, hy, -, hnear, -⟩ :=
    optimal_nearly_optimal identityProgram longStep none (fun _ => 0) r hr hstatus
  exact ⟨r, hr, hstatus, w, x, z, y, hy, hnear⟩

end SelfDual
