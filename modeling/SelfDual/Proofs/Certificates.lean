import Mathlib.Data.Finset.Max
import SelfDual.Proofs.FirstIteration
import SelfDual.Proofs.WeakDuality
/-!
**What a certificate shows.**

A solve that ends with a certificate has let `tau` vanish beside `kappa`.  The objective of the
multipliers then decides between two statuses.  If it exceeds the tolerance, the multipliers are a
quantitative version of a Farkas certificate: feasible points are far away, or there are none.  If
it does not, the gap residual ties the cost of the last point to `kappa`, and the cost is negative
where `kappa` exceeds what is left of the gap; nothing else has looked at its sign.

Main definitions:

* `Problem.maxCost` — the greatest absolute value of the costs;
* `FarkasCertificate` — multipliers that bound a weighted sum of every feasible point from below.

Main results:

* `OnPath.target_dotProduct` — **the multipliers at a point of a solve against a feasible point**;
* `FarkasCertificate.lt_sum`, `FarkasCertificate.not_feasible` — feasible points are far away, or
  there are none;
* `infeasible_farkas` — **a solve that ends with infeasibility** has such a certificate;
* `unbounded_descent` — **a solve that ends with unboundedness** descends where `kappa` exceeds the
  gap.
-/

set_option autoImplicit false

open Matrix

namespace SelfDual

variable {K : Type} [ExactField K] {p : Problem K} {o : Options K} {w : Point K p.m p.n}

/-! ### Multipliers and feasible points -/

namespace Problem

/-- The greatest absolute value of the costs. -/
def maxCost (p : Problem K) : K :=
  Finset.univ.sup' ⟨⟨0, p.n_pos⟩, Finset.mem_univ _⟩ fun i => |p.cost i|

theorem abs_cost_le_maxCost (p : Problem K) (i : Fin p.n) : |p.cost i| ≤ p.maxCost :=
  Finset.le_sup' (fun i => |p.cost i|) (Finset.mem_univ i)

/-- No weight of a Farkas certificate exceeds this bound. -/
theorem weight_le (p : Problem K) (tau theta : K) (i : Fin p.n) :
    (tau - theta) * p.cost i + theta ≤ |tau - theta| * p.maxCost + theta := by
  have hproduct : (tau - theta) * p.cost i ≤ |tau - theta| * p.maxCost :=
    calc (tau - theta) * p.cost i ≤ |(tau - theta) * p.cost i| := le_abs_self _
      _ = |tau - theta| * |p.cost i| := abs_mul _ _
      _ ≤ |tau - theta| * p.maxCost :=
        mul_le_mul_of_nonneg_left (p.abs_cost_le_maxCost i) (abs_nonneg _)
  linarith

end Problem

/-- **The multipliers at a point of a solve against a feasible point.**  The dual residual is that
of the blind start times the complementarity, so that the cost enters with the weight `tau - mu`. -/
theorem OnPath.target_dotProduct (h : OnPath p o w) {x : Fin p.n → K} (hx : p.Feasible x) :
    p.target ⬝ᵥ w.y = ∑ i, x i * ((w.tau - w.mu) * p.cost i + w.mu) - x ⬝ᵥ w.z := by
  have hpair : x ⬝ᵥ w.dual p = w.tau * (p.cost ⬝ᵥ x) - p.target ⬝ᵥ w.y - x ⬝ᵥ w.z :=
    hx.dotProduct_dual w
  have hscaled : x ⬝ᵥ w.dual p = w.mu * (p.cost ⬝ᵥ x - ∑ i, x i) := by
    rw [h.scales.dual, p.dual_blindStart, dotProduct_smul, dotProduct_sub, dotProduct_one,
      dotProduct_comm, smul_eq_mul]
  have hweights : ∑ i, x i * ((w.tau - w.mu) * p.cost i + w.mu) =
      (w.tau - w.mu) * (p.cost ⬝ᵥ x) + w.mu * ∑ i, x i := by
    rw [dotProduct, Finset.mul_sum, Finset.mul_sum, ← Finset.sum_add_distrib]
    exact Finset.sum_congr rfl fun i _ => by ring
  rw [hweights]
  linarith

/-! ### Infeasibility -/

/-- **A Farkas certificate with a tolerance**: the objective of the multipliers exceeds the
tolerance, and so does a weighted sum of every feasible point.  Where `tau` and `theta` are zero the
weights are, and there is no feasible point. -/
structure FarkasCertificate (p : Problem K) (tol tau theta : K) (y : Fin p.m → K) : Prop where
  target : tol < p.target ⬝ᵥ y
  weighted : ∀ x, p.Feasible x → tol < ∑ i, x i * ((tau - theta) * p.cost i + theta)

namespace FarkasCertificate

variable {tol tau theta : K} {y : Fin p.m → K} {x : Fin p.n → K}

/-- The weighted sum is at most the greatest weight times the sum. -/
theorem lt_mul_sum (h : FarkasCertificate p tol tau theta y) (hx : p.Feasible x) :
    tol < (|tau - theta| * p.maxCost + theta) * ∑ i, x i := by
  refine (h.weighted x hx).trans_le ?_
  rw [Finset.mul_sum]
  refine Finset.sum_le_sum fun i _ => ?_
  rw [mul_comm]
  exact mul_le_mul_of_nonneg_right (p.weight_le tau theta i) (hx.nonneg i)

/-- **Feasible points are far away.** -/
theorem lt_sum (h : FarkasCertificate p tol tau theta y)
    (hweight : 0 < |tau - theta| * p.maxCost + theta) (hx : p.Feasible x) :
    tol / (|tau - theta| * p.maxCost + theta) < ∑ i, x i :=
  (div_lt_iff₀' hweight).2 (h.lt_mul_sum hx)

/-- **There is no feasible point** if no weight is positive. -/
theorem not_feasible (h : FarkasCertificate p tol tau theta y) (htol : 0 < tol)
    (hweight : |tau - theta| * p.maxCost + theta = 0) : ¬p.Feasible x := by
  intro hx
  have hlt := h.lt_mul_sum hx
  rw [hweight, zero_mul] at hlt
  exact hlt.not_gt htol

end FarkasCertificate

/-- The multipliers at a point of a solve whose objective exceeds the tolerance. -/
theorem OnPath.farkasCertificate (h : OnPath p o w) {tol : K} (hlt : tol < p.target ⬝ᵥ w.y) :
    FarkasCertificate p tol w.tau w.mu w.y where
  target := hlt
  weighted x hx := by
    have hreduced : 0 ≤ x ⬝ᵥ w.z := hx.dotProduct_nonneg h.nonneg.z
    rw [h.target_dotProduct hx] at hlt
    linarith

/-- Where there is a certificate, `tau` is small, since `kappa` is bounded. -/
theorem OnPath.tau_lt (h : OnPath p o w) (hbalanced : w.Balanced)
    (hcertificate : (w.indicators p).isCertificate w.tau w.kappa o.tol = true) :
    w.tau < 2 * (p.n + 1) * o.tol := by
  obtain ⟨-, -, -, htau⟩ := h.residuals_lt_of_certificate o.tol_pos.le hcertificate
  have hcount : (0 : K) ≤ p.n := Nat.cast_nonneg _
  have hkappa : max 1 w.kappa ≤ 2 * (p.n + 1) :=
    max_le (by linarith) (hbalanced.atMost h.nonneg).kappa
  calc w.tau < o.tol * max 1 w.kappa := htau
    _ ≤ o.tol * (2 * (p.n + 1)) := mul_le_mul_of_nonneg_left hkappa o.tol_pos.le
    _ = 2 * (p.n + 1) * o.tol := mul_comm _ _

/-- **A solve that ends with infeasibility has a Farkas certificate.**  With `tau` and the
multipliers of the last point, and `theta` the last complementarity of the history, a weighted sum
of every feasible point exceeds the tolerance, so that feasible points are far away or do not exist.
For small tolerances the multipliers that are returned pass the same test. -/
theorem infeasible_farkas (p : Problem K) (o : Options K) (callback : Option (Callback K))
    (clock : ℕ → K) (r : Result K) (hr : (solve p o callback clock).result = .ok r)
    (hstatus : r.status = .infeasible) :
    ∃ (w : Point K p.m p.n) (theta : K) (y : Fin p.m → K),
      (solve p o callback clock).advances.getLast?.map (·.point) = some w.iterate ∧
      r.history.getLast?.map (·.rhoMu) = some theta ∧ r.y = .ofVector y ∧
      o.tol < p.target ⬝ᵥ w.y ∧
      (∀ x, p.Feasible x → o.tol < ∑ i, x i * ((w.tau - theta) * p.cost i + theta)) ∧
      (0 < |w.tau - theta| * p.maxCost + theta →
        ¬∃ x, p.Feasible x ∧ ∑ i, x i ≤ o.tol / (|w.tau - theta| * p.maxCost + theta)) ∧
      (|w.tau - theta| * p.maxCost + theta = 0 → ¬∃ x, p.Feasible x) ∧
      w.tau < 2 * (p.n + 1) * o.tol ∧
      (2 * (p.n + 1) * o.tol ≤ 1 → o.tol < p.target ⬝ᵥ y) := by
  obtain ⟨w, hw⟩ := exists_decidedAt hr (by rw [hstatus]; decide) (by rw [hstatus]; decide)
  obtain ⟨hcertificate, hlt⟩ := hw.infeasible hstatus
  have hfarkas := hw.onPath.farkasCertificate hlt
  have htau := hw.onPath.tau_lt hw.balanced hcertificate
  refine ⟨w, w.mu, w.tau⁻¹ • w.y, hw.last_point, hw.last_mu, hw.y, hfarkas.target, hfarkas.weighted,
    ?_, ?_, htau, fun hsmall => ?_⟩
  · rintro hweight ⟨x, hx, hle⟩
    exact hle.not_gt (hfarkas.lt_sum hweight hx)
  · rintro hweight ⟨x, hx⟩
    exact hfarkas.not_feasible o.tol_pos hweight hx
  · -- A division by a `tau` below one makes the objective of the multipliers greater.
    have hone : w.tau ≤ 1 := htau.le.trans hsmall
    rw [dotProduct_smul, smul_eq_mul, inv_mul_eq_div]
    exact hlt.trans_le (le_div_self (o.tol_pos.trans hlt).le hw.onPath.tau_pos hone)

/-- After one iteration it has a certificate of infeasibility. -/
theorem infeasible_farkas_negativeProgram :
    ∃ r, (solve (negativeProgram : Problem ℝ) longStep none fun _ => 0).result = .ok r ∧
      r.status = .infeasible ∧ ∃ (w : Point ℝ 1 1) (theta : ℝ) (y : Fin 1 → ℝ),
        r.history.getLast?.map (·.rhoMu) = some theta ∧ r.y = .ofVector y ∧
        w.tau < 2 * ((1 : ℕ) + 1) * (1 / 100) ∧
        1 / 100 < (negativeProgram : Problem ℝ).target ⬝ᵥ y := by
  obtain ⟨r, hr, hstatus, -⟩ := decidedAt_negativeProgram
  obtain ⟨w, theta, y, -, htheta, hy, -, -, -, -, htau, hreturned⟩ :=
    infeasible_farkas negativeProgram longStep none (fun _ => 0) r hr hstatus
  refine ⟨r, hr, hstatus, w, theta, y, htheta, hy, htau, hreturned ?_⟩
  norm_num [longStep_alpha0, longStep_tol, negativeProgram, Problem.ofMatrix]

/-! ### Unboundedness -/

/-- The cost at a point of a solve is determined by the multipliers and `kappa`, up to what is left
of the gap. -/
theorem OnPath.cost_dotProduct (h : OnPath p o w) :
    p.cost ⬝ᵥ w.x = p.target ⬝ᵥ w.y - w.kappa + w.mu * (1 + ∑ i, p.cost i) := by
  have hgap : w.kappa + p.cost ⬝ᵥ w.x - p.target ⬝ᵥ w.y = w.mu * (1 + ∑ i, p.cost i) := by
    rw [← p.gap_blindStart]
    exact h.scales.gap
  linarith

/-- What is left of the gap where its indicator is below a tolerance. -/
theorem OnPath.gap_lt (h : OnPath p o w) {tol : K} (hG : (w.indicators p).rhoG < tol) :
    w.mu * (1 + ∑ i, p.cost i) < tol * max 1 |1 + ∑ i, p.cost i| := by
  rw [h.rhoG_eq, ← mul_div_assoc, div_lt_iff₀ (lt_max_of_lt_left one_pos)] at hG
  exact (mul_le_mul_of_nonneg_left (le_abs_self _) h.nonneg.mu_nonneg).trans_lt hG

/-- **A solve that ends with unboundedness descends where `kappa` exceeds the gap.**  At the last
point, with `theta` the last complementarity of the history, the cost of `x` is the objective of the
multipliers, which is at most the tolerance, less `kappa`, plus what is left of the gap.  So it is
negative exactly if `kappa` exceeds the other two, in particular if `kappa` is at least the
tolerance times a factor of the costs, and then so is the objective that is returned. -/
theorem unbounded_descent (p : Problem K) (o : Options K) (callback : Option (Callback K))
    (clock : ℕ → K) (r : Result K) (hr : (solve p o callback clock).result = .ok r)
    (hstatus : r.status = .unbounded) :
    ∃ (w : Point K p.m p.n) (theta : K),
      (solve p o callback clock).advances.getLast?.map (·.point) = some w.iterate ∧
      r.history.getLast?.map (·.rhoMu) = some theta ∧
      p.target ⬝ᵥ w.y ≤ o.tol ∧
      p.cost ⬝ᵥ w.x = p.target ⬝ᵥ w.y - w.kappa + theta * (1 + ∑ i, p.cost i) ∧
      (p.cost ⬝ᵥ w.x < 0 ↔ p.target ⬝ᵥ w.y + theta * (1 + ∑ i, p.cost i) < w.kappa) ∧
      p.cost ⬝ᵥ w.x < o.tol * (1 + max 1 |1 + ∑ i, p.cost i|) - w.kappa ∧
      (o.tol * (1 + max 1 |1 + ∑ i, p.cost i|) ≤ w.kappa → p.cost ⬝ᵥ w.x < 0) ∧
      (r.objective < 0 ↔ p.cost ⬝ᵥ w.x < 0) := by
  obtain ⟨w, hw⟩ := exists_decidedAt hr (by rw [hstatus]; decide) (by rw [hstatus]; decide)
  obtain ⟨hcertificate, hle⟩ := hw.unbounded hstatus
  obtain ⟨-, -, hG, -⟩ := hw.onPath.residuals_lt_of_certificate o.tol_pos.le hcertificate
  have hcost := hw.onPath.cost_dotProduct
  have hgap := hw.onPath.gap_lt hG
  have hbound : p.cost ⬝ᵥ w.x < o.tol * (1 + max 1 |1 + ∑ i, p.cost i|) - w.kappa := by
    rw [hcost]
    linarith
  refine ⟨w, w.mu, hw.last_point, hw.last_mu, hle, hcost, ?_, hbound, fun hkappa => ?_, ?_⟩
  · rw [hcost]
    constructor <;> intro hlt <;> linarith
  · exact hbound.trans_le (sub_nonpos.2 hkappa)
  · rw [hw.objective, dotProduct_smul]
    exact smul_neg_iff_of_pos_left (inv_pos.2 hw.onPath.tau_pos)

/-- With little cost for the second variable the point descends. -/
theorem unbounded_descent_rayProgram :
    ∃ r, (solve (rayProgram (1 : ℝ)) longStep none fun _ => 0).result = .ok r ∧
      r.status = .unbounded ∧ ∃ w : Point ℝ 1 2,
        (solve (rayProgram (1 : ℝ)) longStep none fun _ => 0).advances.getLast?.map (·.point) =
          some w.iterate ∧
        (rayProgram (1 : ℝ)).cost ⬝ᵥ w.x < 0 ∧ r.objective < 0 := by
  obtain ⟨r, hr, hstatus, hdecided⟩ := decidedAt_rayProgram 1 (by norm_num [abs_of_neg])
  obtain ⟨w, theta, hlast, -, -, -, -, -, hdescent, hobjective⟩ :=
    unbounded_descent (rayProgram 1) longStep none (fun _ => 0) r hr hstatus
  have hkappa : w.kappa = 1 := by
    have hpoint := Option.some.inj (hlast.symm.trans hdecided.last_point)
    rw [Point.iterate_injective hpoint, move_rayDirection]
  have hsum : ∑ i, (rayProgram (1 : ℝ)).cost i = 0 := by
    rw [← dotProduct_one]
    exact (cost_rayProgram 1 1).trans (by rw [one_mul]; exact sub_self 1)
  have hnegative : (rayProgram (1 : ℝ)).cost ⬝ᵥ w.x < 0 := by
    refine hdescent ?_
    rw [hsum, hkappa]
    norm_num [longStep_alpha0, longStep_tol]
  exact ⟨r, hr, hstatus, w, hlast, hnegative, hobjective.2 hnegative⟩

/-- With a great cost for the second variable the point ascends, though the solve ends with
unboundedness all the same. -/
theorem unbounded_ascent_rayProgram :
    ∃ r, (solve (rayProgram (2000 : ℝ)) longStep none fun _ => 0).result = .ok r ∧
      r.status = .unbounded ∧ ∃ w : Point ℝ 1 2,
        (solve (rayProgram (2000 : ℝ)) longStep none fun _ => 0).advances.getLast?.map (·.point) =
          some w.iterate ∧
        ¬(rayProgram (2000 : ℝ)).cost ⬝ᵥ w.x < 0 ∧ ¬r.objective < 0 := by
  obtain ⟨r, hr, hstatus, hdecided⟩ := decidedAt_rayProgram 2000 (by norm_num [abs_of_pos])
  have hobjective := hdecided.objective
  have hlast := hdecided.last_point
  rw [move_rayDirection] at hobjective hlast
  have hcost : (rayProgram (2000 : ℝ)).cost ⬝ᵥ ![1, 1 - 999 / 1000] = 1 := by
    refine (cost_rayProgram 2000 _).trans ?_
    norm_num
  have hscaled : r.objective = (1 - 999 / 1000)⁻¹ * 1 := by
    rw [hobjective, dotProduct_smul, smul_eq_mul]
    exact congrArg _ hcost
  refine ⟨r, hr, hstatus, _, hlast, ?_, ?_⟩
  · refine not_lt.2 (le_of_le_of_eq ?_ hcost.symm)
    exact zero_le_one
  · rw [hscaled]
    norm_num

end SelfDual
