import SelfDual.Proofs.Records
import SelfDual.Proofs.ResidualNorms
import SelfDual.Proofs.Simulation
/-!
**The solution that is returned, against the point it comes from.**

A solve divides its last point by `tau` and sets the entries of `x` below the tolerance to zero.  No
entry is negative, so this takes less than the tolerance away from each.  The objective is that of
the point, the primal residual is that of the entries that are returned, and the dual residual is
that of the blind start, shrunk with the complementarity.  All of them belong to one point, in
whichever way the solve ends: a breakdown leaves the point of the iteration before, and its
indicators with it.

Main definitions:

* `Snaps` — a vector with its entries below the tolerance set to zero;
* `FinalPoint` — where the loop of a solve stands when it ends.

Main results:

* `snaps_snapped` — this is the vector that is computed;
* `Snaps.abs_dotProduct_sub_le`, `Snaps.maxNorm_le` — what the zeros change in a product, and in the
  constraints;
* `exists_finalPoint` — **a result is formed at one point with its own indicators**;
* `OnPath.dual_solution_eq` — the dual residual of the solution at a point of a solve;
* `result_is_snapped` — **what a solve returns, whatever its status**.
-/

set_option autoImplicit false

open Matrix

namespace SelfDual

variable {K : Type} [ExactField K] {m n : ℕ}

/-! ### Entries set to zero -/

/-- `x` is `X` with its entries below the tolerance set to zero, none of which is negative. -/
structure Snaps (tol : K) (X x : Fin n → K) : Prop where
  entry : ∀ i, x i = 0 ∨ x i = X i ∧ tol ≤ X i
  le : ∀ i, x i ≤ X i
  lt : ∀ i, X i - x i < tol

theorem snaps_snapped {tol : K} {X : Fin n → K} (hX : ∀ i, 0 ≤ X i) (htol : 0 < tol) :
    Snaps tol X (snapped tol X) := by
  have hcases : ∀ i, (X i < tol ∧ snapped tol X i = 0) ∨ (tol ≤ X i ∧ snapped tol X i = X i) := by
    intro i
    by_cases hlt : X i < tol
    · exact .inl ⟨hlt, if_pos hlt⟩
    · exact .inr ⟨not_lt.1 hlt, if_neg hlt⟩
  constructor
  case entry =>
    intro i
    rcases hcases i with ⟨-, hzero⟩ | ⟨hle, hsame⟩
    · exact .inl hzero
    · exact .inr ⟨hsame, hle⟩
  case le =>
    intro i
    rcases hcases i with ⟨-, hzero⟩ | ⟨-, hsame⟩
    · rw [hzero]
      exact hX i
    · exact hsame.le
  case lt =>
    intro i
    rcases hcases i with ⟨hlt, hzero⟩ | ⟨-, hsame⟩
    · rwa [hzero, sub_zero]
    · rwa [hsame, sub_self]

namespace Snaps

variable {tol : K} {X x : Fin n → K}

theorem abs_sub_le (h : Snaps tol X x) (i : Fin n) : |(X - x) i| ≤ tol := by
  rw [Pi.sub_apply, abs_of_nonneg (sub_nonneg.2 (h.le i))]
  exact (h.lt i).le

/-- What the zeros change in a product. -/
theorem abs_dotProduct_sub_le (h : Snaps tol X x) (u : Fin n → K) :
    |u ⬝ᵥ X - u ⬝ᵥ x| ≤ tol * ∑ i, |u i| := by
  rw [← dotProduct_sub, dotProduct_comm]
  exact abs_dotProduct_le h.abs_sub_le

/-- **What the zeros change in the constraints**: the greatest residual grows by no more than the
tolerance times the greatest sum of the absolute values in a row. -/
theorem maxNorm_le (h : Snaps tol X x) (htol : 0 < tol) (A : Matrix (Fin m) (Fin n) K)
    (b : Fin m → K) :
    ExactField.maxNorm (A *ᵥ x - b) ≤
      ExactField.maxNorm (A *ᵥ X - b) + tol * ExactField.maxNorm fun j => ∑ i, |A j i| := by
  have hbefore := isMaxNorm_maxNorm (A *ᵥ X - b)
  have hrows := isMaxNorm_maxNorm fun j => ∑ i, |A j i|
  have hbound : 0 ≤ ExactField.maxNorm (A *ᵥ X - b) +
      tol * ExactField.maxNorm fun j => ∑ i, |A j i| :=
    add_nonneg (ExactField.maxNorm_nonneg _) (mul_nonneg htol.le (ExactField.maxNorm_nonneg _))
  rw [(isMaxNorm_maxNorm (A *ᵥ x - b)).le_iff hbound]
  intro j
  have hchange : |(A *ᵥ X) j - (A *ᵥ x) j| ≤ tol * ∑ i, |A j i| := h.abs_dotProduct_sub_le (A j)
  have hrow : ∑ i, |A j i| ≤ ExactField.maxNorm fun j => ∑ i, |A j i| :=
    (le_abs_self _).trans (hrows.bound j)
  have hsplit : (A *ᵥ x - b) j = (A *ᵥ X - b) j - ((A *ᵥ X) j - (A *ᵥ x) j) := by
    rw [Pi.sub_apply, Pi.sub_apply]
    ring
  calc |(A *ᵥ x - b) j| ≤ |(A *ᵥ X - b) j| + |(A *ᵥ X) j - (A *ᵥ x) j| := by
        rw [hsplit]
        exact abs_sub _ _
    _ ≤ ExactField.maxNorm (A *ᵥ X - b) + tol * ExactField.maxNorm fun j => ∑ i, |A j i| :=
        add_le_add (hbefore.bound j) (hchange.trans (mul_le_mul_of_nonneg_left hrow htol.le))

end Snaps

/-! ### The end of a solve -/

section Ends

variable (p : Problem K) (o : Options K) (callback : Option (Callback K)) (clock : ℕ → K)

/-- **Where the loop of a solve stands when it ends**: at the point `w` where the accepted
iterations end, with the indicators of that point. -/
structure FinalPoint (s : Progress K) (w : Point K p.m p.n) : Prop where
  onPath : OnPath p o w
  point : s.point = w.iterate
  indicators : s.indicators = w.indicators p
  last : ((solve p o callback clock).advances.getLast?.map (·.point)).getD (.blindStart p.m p.n) =
    w.iterate
  history : ∀ now, s.history.getLast? = some now → now = w.indicators p

variable {p o callback clock}

/-- **A result is formed at one point with its own indicators**, in whichever way the solve has
ended. -/
theorem exists_finalPoint {r : Result K} (hr : (solve p o callback clock).result = .ok r) :
    ∃ s w stop, FinalPoint p o callback clock s w ∧ s.result p o.tol stop = .ok r := by
  obtain ⟨start, as, s, hstart, hcourse, hresult⟩ :=
    (Run.standard p o callback clock).exists_course_of_result hr
  obtain rfl := Except.ok.inj (hstart.symm.trans (Run.start_standard p o callback clock))
  obtain ⟨-, hindicators, hhistory⟩ := hcourse.fields_eq
  have hpath : (Kernels.standard p o).Path (.blindStart p.m p.n) as s.point := hcourse.path
  have hadvances : (solve p o callback clock).advances = as := hcourse.advances_solve hstart
  obtain ⟨w, hw, honPath⟩ := hpath.onPath
  rw [hw] at hpath
  have hlast := hpath.lastIndicators_eq
  refine ⟨s, w, r.stop, ⟨honPath, hw, hindicators.trans hlast, ?_, fun now hnow => ?_⟩, hresult⟩
  · rw [hadvances]
    exact hpath.last_point.symm
  · rw [hhistory, List.getLast?_map] at hnow
    rw [hnow] at hlast
    exact hlast

end Ends

/-- **The dual residual of the solution at a point of a solve** is that of the blind start, times
the complementarity over `tau`. -/
theorem OnPath.dual_solution_eq {p : Problem K} {o : Options K} {w : Point K p.m p.n}
    (h : OnPath p o w) :
    p.cost - p.matrixᵀ *ᵥ (w.tau⁻¹ • w.y) - w.tau⁻¹ • w.z = (w.mu / w.tau) • (p.cost - 1) := by
  rw [Point.dual_solution h.tau_pos.ne', h.scales.dual, p.dual_blindStart, smul_smul,
    div_eq_inv_mul]

/-! ### What is returned -/

/-- **What a solve returns, whatever its status.**  With `X` the solution `x / tau` at the point
where the accepted iterations end and `now` the indicators of that point: each entry of `x` is zero,
or that of `X` and no less than the tolerance, and lies less than the tolerance below that of `X`.
The objective is that of `X`, so it is as far from the cost of `x` as the tolerance and the costs
allow.  The primal residual is that of `x`, and exceeds that of `X` by no more than the tolerance
times the greatest row of the constraints.  The dual residual is that of the blind start, times the
complementarity over `tau`. -/
theorem result_is_snapped (p : Problem K) (o : Options K) (callback : Option (Callback K))
    (clock : ℕ → K) (r : Result K) (hr : (solve p o callback clock).result = .ok r) :
    ∃ (w : Point K p.m p.n) (X x : Fin p.n → K) (now : Indicators K),
      ((solve p o callback clock).advances.getLast?.map (·.point)).getD (.blindStart p.m p.n) =
        w.iterate ∧
      0 < w.tau ∧ X = w.tau⁻¹ • w.x ∧ w.iterate.solution .on = .ok (.ofVector X) ∧
      indicators .on p w.iterate = .ok now ∧
      (∀ last, r.history.getLast? = some last → last = now) ∧
      r.x = .ofVector x ∧
      (∀ i, x i = 0 ∨ x i = X i ∧ o.tol ≤ X i) ∧
      (∀ i, 0 ≤ X i - x i ∧ X i - x i < o.tol) ∧
      r.objective = now.obj ∧ r.objective = p.cost ⬝ᵥ X ∧
      |r.objective - p.cost ⬝ᵥ x| ≤ o.tol * ∑ i, |p.cost i| ∧
      r.primalResidual = ExactField.maxNorm (p.matrix *ᵥ x - p.target) ∧
      r.primalResidual ≤ ExactField.maxNorm (p.matrix *ᵥ X - p.target) +
        o.tol * (ExactField.maxNorm fun j => ∑ i, |p.matrix j i|) ∧
      (p.m = 0 → r.primalResidual = 0) ∧
      r.dualResidual = now.rhoMu * ExactField.maxNorm (p.cost - 1) / w.tau := by
  obtain ⟨s, w, stop, hfinal, hresult⟩ := exists_finalPoint hr
  have htau : 0 < w.tau := hfinal.onPath.tau_pos
  obtain ⟨primal, dual, hcomputed, hprimal, hdual⟩ :=
    Progress.exists_result_isMaxNorm p hfinal.point htau.ne' o.tol stop
  obtain rfl := Except.ok.inj (hresult.symm.trans hcomputed)
  have hX : ∀ i, 0 ≤ (w.tau⁻¹ • w.x) i := fun i =>
    mul_nonneg (inv_nonneg.2 htau.le) (hfinal.onPath.nonneg.x i)
  have hsnaps := snaps_snapped hX o.tol_pos
  have hobjective : s.indicators.obj = p.cost ⬝ᵥ (w.tau⁻¹ • w.x) :=
    congrArg Indicators.obj hfinal.indicators
  refine ⟨w, w.tau⁻¹ • w.x, snapped o.tol (w.tau⁻¹ • w.x), w.indicators p, hfinal.last, htau, rfl,
    Point.solution_exact .on htau.ne', indicators_exact .on p htau, hfinal.history,
    snap_vector _ _, hsnaps.entry, fun i => ⟨sub_nonneg.2 (hsnaps.le i), hsnaps.lt i⟩,
    congrArg Indicators.obj hfinal.indicators, hobjective, ?_, hprimal.eq_maxNorm, ?_,
    fun hm => ?_, ?_⟩
  · rw [Progress.resultAt, hobjective]
    exact hsnaps.abs_dotProduct_sub_le p.cost
  · exact hprimal.eq_maxNorm.trans_le (hsnaps.maxNorm_le o.tol_pos p.matrix p.target)
  · -- Without constraints there is no entry for the norm to be attained at.
    rcases hprimal.attained with ⟨j, -⟩ | ⟨-, hzero⟩
    · exact absurd j.pos (by rw [hm]; exact lt_irrefl 0)
    · exact hzero
  · rw [hfinal.onPath.dual_solution_eq] at hdual
    have hshrunk := (isMaxNorm_maxNorm (p.cost - 1)).smul
      (div_nonneg hfinal.onPath.nonneg.mu_nonneg htau.le)
    rw [mul_div_right_comm]
    exact hdual.unique hshrunk

/-- What is returned for the identity lies less than a hundredth below the point it comes from. -/
theorem result_is_snapped_identityProgram :
    ∃ r, (solve (identityProgram : Problem ℝ) longStep none fun _ => 0).result = .ok r ∧
      ∃ (w : Point ℝ 1 1) (X x : Fin 1 → ℝ), 0 < w.tau ∧ X = w.tau⁻¹ • w.x ∧ r.x = .ofVector x ∧
        (∀ i, 0 ≤ X i - x i ∧ X i - x i < 1 / 100) ∧
        |r.objective - (identityProgram : Problem ℝ).cost ⬝ᵥ x| ≤
          1 / 100 * ∑ i, |(identityProgram : Problem ℝ).cost i| := by
  obtain ⟨r, hr, -⟩ := decidedAt_identityProgram
  obtain ⟨w, X, x, now, -, htau, hX, -, -, -, hx, -, hentries, -, -, hobjective, -⟩ :=
    result_is_snapped identityProgram longStep none (fun _ => 0) r hr
  exact ⟨r, hr, w, X, x, htau, hX, hx, hentries, hobjective⟩

end SelfDual
