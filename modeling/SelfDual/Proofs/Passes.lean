import SelfDual.Proofs.Breakdown
import SelfDual.Proofs.Determinacy
/-!
**The two passes of a search direction.**

A search direction is computed in two passes over one system, a predictor and a corrector, and both
of them divide by the same number.  At a positive point this number is `kappa / tau` and a sum of
squares, so it is positive, and the only thing that can go wrong is the factorization: a direction
is found exactly for independent rows.  Since the products of the direction cancel, a step along it
multiplies the complementarity, which is quadratic in the point, by the same number as the
residuals, which are linear.

Main definitions:

* `SearchPasses` — what the computation of a search direction goes through;
* `NewtonSystem.numerator`, `NewtonSystem.divisor` — the quotient that the change of `tau` is;
* `NewtonSystem.DividesBy` — a pass and the number that it divides by;
* `Residuals.scale` — residuals times a number.

Main results:

* `searchDirection_eq_ok_iff_passes` — a search direction has been found exactly if both passes have
  succeeded, for any scalars;
* `NewtonSystem.exists_quotient_of_direction` — **every direction of a system divides by the divisor
  of the system**, for any scalars;
* `exists_searchPasses`, `exists_directionAt` — at a positive point with independent rows both
  passes succeed, and the equations have a solution;
* `DirectionAt.searchDirection_eq` — **the solution of the equations is what is computed** at a
  positive point, with traps or without;
* `searchDirection_scales_residuals` — **a step along a search direction multiplies all residuals
  and the complementarity by one number**;
* `searchDirection_iff_independent` — **a search direction is found exactly for independent rows**.
-/

set_option autoImplicit false

open Matrix

namespace SelfDual

/-! ### What is computed -/

section Computation

variable {R : Type} [Scalar R]

/-- **What the computation of a search direction goes through**: the system, the predictor, the step
along it, the centering that this step asks for, and the corrector. -/
structure SearchPasses (traps : Traps) (factorizer : Factorizer R) (p : Problem R) (it : Iterate R)
    (beta : R) (s : NewtonSystem R) (pred : Direction R) (alpha gamma : R) (d : Direction R) :
    Prop where
  system : NewtonSystem.assemble traps factorizer p it = .ok s
  predictor : s.predictor traps = .ok pred
  step : stepLength traps it pred 1 = .ok alpha
  centering : correctorGamma alpha beta = .ok gamma
  corrector : s.corrector traps pred gamma = .ok d

/-- A search direction has been found exactly if both passes have succeeded. -/
theorem searchDirection_eq_ok_iff_passes {traps : Traps} {factorizer : Factorizer R}
    {p : Problem R} {it : Iterate R} {beta : R} {d : Direction R} :
    searchDirection traps factorizer p it beta = .ok d ↔
      ∃ s pred alpha gamma, SearchPasses traps factorizer p it beta s pred alpha gamma d := by
  constructor
  · intro h
    obtain ⟨s, hs, h⟩ := exists_of_bind h
    obtain ⟨pred, hpred, h⟩ := exists_of_bind h
    obtain ⟨alpha, halpha, h⟩ := exists_of_bind h
    obtain ⟨gamma, hgamma, hd⟩ := exists_of_bind h
    exact ⟨s, pred, alpha, gamma, hs, hpred, halpha, hgamma, hd⟩
  · rintro ⟨s, pred, alpha, gamma, h⟩
    rw [searchDirection, h.system, ok_bind, h.predictor, ok_bind, h.step, ok_bind, h.centering,
      ok_bind, h.corrector]

namespace NewtonSystem

/-- What the change of `tau` is divided by, the same for every right-hand side. -/
def divisor (traps : Traps) (s : NewtonSystem R) : Except Error (Tensor R) := do
  let ratio ← Scalar.quotient s.point.kappa s.point.tau
  Tensor.add traps (.scalar ratio) (← coupling traps s.problem s.p s.q)

/-- What is divided to give the change of `tau` for a right-hand side. -/
def numerator (traps : Traps) (s : NewtonSystem R) (gamma : R) (r_xz : Tensor R) (r_tk : R) :
    Except Error (Tensor R) := do
  let eta : R := 1 - gamma
  let primal ← Tensor.mul traps (.scalar eta) s.residuals.primal
  let dual ← Tensor.mul traps (.scalar eta) s.residuals.dual
  let (u, v) ← saddleSolve traps s.factorization s.problem.A s.scaling
    (← Tensor.sub traps dual (← Tensor.div traps r_xz s.point.x)) primal
  let known := eta * s.residuals.gap + (← Scalar.quotient r_tk s.point.tau)
  Tensor.sub traps (.scalar known) (← coupling traps s.problem u v)

/-- **Every direction of a system divides by its divisor.** -/
theorem exists_quotient_of_direction {traps : Traps} {s : NewtonSystem R} {gamma r_tk : R}
    {r_xz : Tensor R} {d : Direction R} (h : s.direction traps gamma r_xz r_tk = .ok d) :
    ∃ above below dtau, s.numerator traps gamma r_xz r_tk = .ok above ∧
      s.divisor traps = .ok below ∧ Tensor.div traps above below = .ok dtau ∧
      dtau.number = .ok d.dtau := by
  rw [direction] at h
  simp only [bind_eq_ok_iff] at h
  -- After the quotient the parts are put together, and its number is read at the end.
  obtain ⟨primal, hprimal, dual, hdual, ratios, hratios, r, hr, ⟨u, v⟩, hsolve, known, hknown,
    coupled, hcoupled, above, habove, ratio, hratio, coupled₀, hcoupled₀, below, hbelow,
    dtau, hdtau, _, -, _, -, _, -, _, -, _, -, _, -, _, -, _, -, _, -, _, -,
    number, hnumber, _, -, hd⟩ := h
  refine ⟨above, below, dtau, ?_, ?_, hdtau, ?_⟩
  · simp [numerator, hprimal, hdual, hratios, hr, hsolve, hknown, hcoupled, habove]
  · simp [divisor, hratio, hcoupled₀, hbelow]
  · cases hd
    exact hnumber

end NewtonSystem

/-- Residuals times a number. -/
def Residuals.scale (r : Residuals R) (t : R) : Residuals R where
  primal := r.primal.map (t * ·)
  dual := r.dual.map (t * ·)
  gap := t * r.gap
  mu := t * r.mu

end Computation

variable {K : Type} [ExactField K] {p : Problem K} {w w' : Point K p.m p.n}

/-! ### The quotient of a pass -/

namespace NewtonSystem

variable {f : Factorization K} {u : Fin p.n → K} {v : Fin p.m → K} {traps : Traps}
  {gamma r_tk : K} {r_xz : Fin p.n → K} {d : Direction K}

/-- A pass for a right-hand side, with the number `q` that it divides by. -/
structure DividesBy (traps : Traps) (s : NewtonSystem K) (q gamma : K) (r_xz : Tensor K) (r_tk : K)
    (d : Direction K) : Prop where
  computed : s.direction traps gamma r_xz r_tk = .ok d
  divisor : s.divisor traps = .ok (.scalar q)
  quotient : ∃ above, s.numerator traps gamma r_xz r_tk = .ok (.scalar above) ∧
    d.dtau = above / q

/-- The divisor of a system is its pivot. -/
theorem divisor_exact (traps : Traps) (htau : w.tau ≠ 0) :
    (exact p w f u v).divisor traps = .ok (.scalar (w.pivot p u v)) := by
  simp [NewtonSystem.divisor, exact, Scalar.quotient_of_ne htau, Point.pivot]

theorem Assembled.exists_numerator (h : Assembled p w f u v) (htau : w.tau ≠ 0) (traps : Traps)
    (gamma : K) (r_xz : Fin p.n → K) (r_tk : K) :
    ∃ above, (exact p w f u v).numerator traps gamma (.ofVector r_xz) r_tk =
      .ok (.scalar above) := by
  obtain ⟨u', v', hsolve, -⟩ := h.exists_saddleSolve traps
    ((1 - gamma) • w.dual p - r_xz / w.x) ((1 - gamma) • w.primal p)
  refine ⟨(1 - gamma) * w.gap p + r_tk / w.tau - p.coupling u' v', ?_⟩
  simp [numerator, exact, Point.residuals, Tensor.div_vectors _ _ h.x_ne_zero, p.A_eq, hsolve,
    Scalar.quotient_of_ne htau]

/-- **A pass that has succeeded has divided by the pivot.** -/
theorem Assembled.dividesBy (h : Assembled p w f u v) (htau : w.tau ≠ 0)
    (hpivot : w.pivot p u v ≠ 0)
    (hd : (exact p w f u v).direction traps gamma (.ofVector r_xz) r_tk = .ok d) :
    (exact p w f u v).DividesBy traps (w.pivot p u v) gamma (.ofVector r_xz) r_tk d := by
  obtain ⟨above, below, dtau, habove, hbelow, hdtau, hnumber⟩ := exists_quotient_of_direction hd
  obtain ⟨a, ha⟩ := h.exists_numerator htau traps gamma r_xz r_tk
  have hdivisor := divisor_exact (f := f) (u := u) (v := v) traps htau
  obtain rfl := Except.ok.inj (habove.symm.trans ha)
  obtain rfl := Except.ok.inj (hbelow.symm.trans hdivisor)
  rw [Tensor.div_scalars traps a hpivot] at hdtau
  obtain rfl := Except.ok.inj hdtau
  exact ⟨hd, hdivisor, a, ha, (Except.ok.inj hnumber).symm⟩

end NewtonSystem

/-! ### Positive points with independent rows -/

/-- **At a positive point with independent rows both passes succeed**, and the pivot is positive. -/
theorem exists_searchPasses (traps : Traps) (backend : Backend)
    (hrows : LinearIndependent K p.matrix.row) (hw : w.Positive) (beta : K) :
    ∃ f u v pred alpha d, NewtonSystem.Assembled p w f u v ∧ 0 < w.pivot p u v ∧
      SearchPasses traps (factorize backend) p w.iterate beta (.exact p w f u v) pred.direction
        alpha (centering beta alpha) d.direction ∧
      IsSearchDirection p w beta pred alpha d := by
  rcases NewtonSystem.assemble_of_ratio_pos traps backend p hw.interior.ratio_pos with
    ⟨f, u, v, hs, h⟩ | ⟨order, -, hdependent⟩
  swap
  · exact absurd hrows hdependent
  have hpivot : 0 < w.pivot p u v := Point.pivot_pos h.saddle h.ratio_pos hw.tau hw.kappa
  obtain ⟨pred, alpha, d, hpred, halpha, hd, hdirection⟩ :=
    h.exists_passes hw.interior hpivot.ne' traps beta
  exact ⟨f, u, v, pred, alpha, d, h, hpivot,
    ⟨hs, hpred, halpha, correctorGamma_exact alpha beta, hd⟩, hdirection⟩

/-- At a positive point with independent rows the equations of a direction have a solution. -/
theorem exists_directionAt (hrows : LinearIndependent K p.matrix.row) (hw : w.Positive) (beta : K) :
    ∃ pred alpha d, DirectionAt p w beta pred alpha d := by
  obtain ⟨f, u, v, pred, alpha, d, hassembled, hpivot, hpasses, hdirection⟩ :=
    exists_searchPasses .on .host hrows hw beta
  exact ⟨pred, alpha, d, hw.interior, hrows, hassembled.regular hw.tau.ne' hpivot.ne',
    hdirection.predictor, hpasses.step, hdirection.corrector⟩

/-- Traps make no difference to the step. -/
theorem stepLength_traps (traps : Traps) {m n : ℕ} (w d : Point K m n) (alpha0 : K) :
    stepLength traps w.iterate d.direction alpha0 =
      stepLength .on w.iterate d.direction alpha0 := by
  obtain ⟨rx, rz, rtau, rkappa, halpha, hx, hz, htau, hkappa⟩ := exists_ratioSteps traps w d alpha0
  obtain ⟨rx', rz', rtau', rkappa', halpha', hx', hz', htau', hkappa'⟩ :=
    exists_ratioSteps .on w d alpha0
  rw [halpha, halpha', hx.unique hx', hz.unique hz', htau.unique htau', hkappa.unique hkappa']

/-- **At a positive point the solution of its equations is the direction that is computed**, with
traps or without. -/
theorem DirectionAt.searchDirection_eq {pred d : Point K p.m p.n} {beta alpha : K}
    (h : DirectionAt p w beta pred alpha d) (hw : w.Positive) (traps : Traps) (backend : Backend) :
    searchDirection traps (factorize backend) p w.iterate beta = .ok d.direction := by
  obtain ⟨f, u, v, pred', alpha', d', -, -, hpasses, hdirection⟩ :=
    exists_searchPasses traps backend h.independent hw beta
  obtain rfl := h.regular _ _ _ _ _ h.predictor hdirection.predictor
  have halpha : alpha' = alpha := by
    have hstep := hpasses.step
    rw [stepLength_traps, h.step] at hstep
    exact (Except.ok.inj hstep).symm
  subst halpha
  obtain rfl := h.regular _ _ _ _ _ h.corrector hdirection.corrector
  exact searchDirection_eq_ok_iff_passes.2 ⟨_, _, _, _, hpasses⟩

/-! ### One number for all residuals -/

/-- Points with proportional residuals and complementarity. -/
theorem Point.residuals_of_scales {t : K} (h : Point.Scales p w w' t) (hmu : w'.mu = t * w.mu) :
    w'.residuals p = (w.residuals p).scale t := by
  simp only [Point.residuals, Residuals.scale, h.primal, h.dual, h.gap, hmu, Tensor.map_ofVector]
  rfl

/-- **A step along a search direction multiplies all residuals and the complementarity by one
number**, whatever its length: with the centering `gamma` that has been computed for the direction
the number is `1 - t (1 - gamma)` for a step of length `t`.  The products of the direction
cancel. -/
theorem searchDirection_scales_residuals (traps : Traps) (backend : Backend) (p : Problem K)
    (hrows : LinearIndependent K p.matrix.row) {w : Point K p.m p.n} (hw : w.Positive) {beta : K}
    (hbeta : 0 ≤ beta) :
    ∃ (s : NewtonSystem K) (pred : Direction K) (alpha gamma : K) (d : Point K p.m p.n),
      SearchPasses traps (factorize backend) p w.iterate beta s pred alpha gamma d.direction ∧
      searchDirection traps (factorize backend) p w.iterate beta = .ok d.direction ∧
      0 ≤ gamma ∧ gamma ≤ beta ∧ d.x ⬝ᵥ d.z + d.tau * d.kappa = 0 ∧
      ∀ t, ∃ it before after, w.iterate.move traps d.direction t = .ok it ∧
        residuals traps p w.iterate = .ok before ∧ residuals traps p it = .ok after ∧
        after = before.scale (1 - t * (1 - gamma)) := by
  obtain ⟨f, u, v, pred, alpha, d, -, -, hpasses, hdirection⟩ :=
    exists_searchPasses traps backend hrows hw beta
  refine ⟨_, _, _, _, d, hpasses, searchDirection_eq_ok_iff_passes.2 ⟨_, _, _, _, hpasses⟩,
    hdirection.centering_nonneg hbeta,
    centering_le hdirection.step.nonneg hdirection.step.le_one hbeta,
    hdirection.corrector_products, fun t => ?_⟩
  have hown : Point.Scales p w w 1 :=
    ⟨(one_smul K _).symm, (one_smul K _).symm, (one_mul _).symm⟩
  have hscales := hdirection.scales_move hown t
  rw [mul_one] at hscales
  exact ⟨_, _, _, Point.move_exact traps w d t, residuals_exact traps p w,
    residuals_exact traps p (w.move d t),
    Point.residuals_of_scales hscales (hdirection.mu_move t)⟩

/-- The search direction of the identity at its blind start, with the device and without traps. -/
theorem searchDirection_scales_residuals_identityProgram :
    LinearIndependent ℝ (identityProgram : Problem ℝ).matrix.row ∧
      (Point.blindStart 1 1 : Point ℝ 1 1).Positive ∧ (0 : ℝ) ≤ 1 / 10 ∧
      ∃ d : Point ℝ 1 1, searchDirection .off (factorize .device) (identityProgram : Problem ℝ)
        (Point.blindStart 1 1 : Point ℝ 1 1).iterate (1 / 10) = .ok d.direction ∧
        d.x ⬝ᵥ d.z + d.tau * d.kappa = 0 := by
  have hw : (Point.blindStart 1 1 : Point ℝ 1 1).Positive := Point.positive_blindStart 1 1
  have hbeta : (0 : ℝ) ≤ 1 / 10 := by norm_num
  obtain ⟨-, -, -, -, d, -, hd, -, -, hproducts, -⟩ :=
    searchDirection_scales_residuals .off .device (identityProgram : Problem ℝ)
      independent_identityProgram hw hbeta
  exact ⟨independent_identityProgram, hw, hbeta, d, hd, hproducts⟩

/-! ### Existence -/

/-- The pivot as a sum of squares over the coordinates. -/
theorem Point.pivot_eq_sum {u : Fin p.n → K} {v : Fin p.m → K}
    (h : SolvesSaddle p.matrix (w.x / w.z) p.cost p.target u v) :
    w.pivot p u v = w.kappa / w.tau + ∑ i, u i ^ 2 * w.z i / w.x i := by
  rw [Point.pivot_eq h]
  refine congrArg (w.kappa / w.tau + ·) (Finset.sum_congr rfl fun i _ => ?_)
  rw [div_div_eq_mul_div, sq]

/-- **Both passes divide by the pivot**, at a positive point with independent rows. -/
theorem exists_dividesBy (traps : Traps) (backend : Backend)
    (hrows : LinearIndependent K p.matrix.row) (hw : w.Positive) (beta : K) :
    ∃ (s : NewtonSystem K) (u : Fin p.n → K) (v : Fin p.m → K) (pred : Point K p.m p.n)
      (alpha gamma q : K) (d : Direction K),
      SearchPasses traps (factorize backend) p w.iterate beta s pred.direction alpha gamma d ∧
      s.p = .ofVector u ∧ s.q = .ofVector v ∧
      q = w.kappa / w.tau + ∑ i, u i ^ 2 * w.z i / w.x i ∧ 0 < q ∧
      s.DividesBy traps q 0 (.ofVector (-w.x * w.z)) (-w.tau * w.kappa) pred.direction ∧
      s.DividesBy traps q gamma (.ofVector (w.correctedProducts pred gamma))
        (w.correctedNumber pred gamma) d := by
  obtain ⟨f, u, v, pred, alpha, d, h, hpivot, hpasses, -⟩ :=
    exists_searchPasses traps backend hrows hw beta
  have hpredictor := hpasses.predictor
  have hcorrector := hpasses.corrector
  rw [NewtonSystem.predictor_exact] at hpredictor
  rw [NewtonSystem.corrector_exact] at hcorrector
  exact ⟨_, u, v, pred, alpha, centering beta alpha, w.pivot p u v, d.direction, hpasses, rfl, rfl,
    Point.pivot_eq_sum h.saddle, hpivot, h.dividesBy hw.tau.ne' hpivot.ne' hpredictor,
    h.dividesBy hw.tau.ne' hpivot.ne' hcorrector⟩

/-- With dependent rows the factorization fails. -/
theorem searchDirection_of_dependent (traps : Traps) (backend : Backend) (hw : w.Positive)
    (hrows : ¬LinearIndependent K p.matrix.row) (beta : K) :
    ∃ order, searchDirection traps (factorize backend) p w.iterate beta =
      .error (.breakdown (.notPositiveDefinite backend order)) := by
  rcases NewtonSystem.assemble_of_ratio_pos traps backend p hw.interior.ratio_pos with
    ⟨f, u, v, -, h⟩ | ⟨order, hs, -⟩
  · exact absurd h.independent hrows
  · exact ⟨order, by rw [searchDirection, hs, error_bind]⟩

/-- Where a ratio `x / z` is not a positive number, the scaling fails. -/
theorem searchDirection_of_ratio (traps : Traps) (backend : Backend)
    (h : ∃ i, w.z i = 0 ∨ w.x i / w.z i ≤ 0) (beta : K) :
    searchDirection traps (factorize backend) p w.iterate beta =
      .error (.breakdown .ratioNotPositive) := by
  have hnot : ¬∀ i, 0 < w.x i / w.z i := by
    intro hpos
    obtain ⟨i, hz | hle⟩ := h
    · exact (div_ne_zero_iff.1 (hpos i).ne').2 hz
    · exact hle.not_gt (hpos i)
  rw [searchDirection, NewtonSystem.assemble_of_not_ratio_pos traps backend p hnot, error_bind]

/-- **A search direction is found exactly for independent rows**, at every positive point; else the
factorization fails.  Both passes then divide by the number that is `kappa / tau` and the sum of
`p² z / x`, and it is positive.  Where a ratio `x / z` is not a positive number, the scaling fails,
whatever the rows are. -/
theorem searchDirection_iff_independent (traps : Traps) (backend : Backend) (p : Problem K)
    (w : Point K p.m p.n) (beta : K) :
    (w.Positive →
      ((∃ d, searchDirection traps (factorize backend) p w.iterate beta = .ok d) ↔
        LinearIndependent K p.matrix.row) ∧
      (¬LinearIndependent K p.matrix.row → ∃ b : Breakdown,
        searchDirection traps (factorize backend) p w.iterate beta = .error (.breakdown b) ∧
        b.kind = "LinAlgError") ∧
      ∀ d, searchDirection traps (factorize backend) p w.iterate beta = .ok d →
        ∃ (s : NewtonSystem K) (u : Fin p.n → K) (v : Fin p.m → K) (pred : Point K p.m p.n)
          (alpha gamma q : K),
          SearchPasses traps (factorize backend) p w.iterate beta s pred.direction alpha gamma d ∧
          s.p = .ofVector u ∧ s.q = .ofVector v ∧
          q = w.kappa / w.tau + ∑ i, u i ^ 2 * w.z i / w.x i ∧ 0 < q ∧
          s.DividesBy traps q 0 (.ofVector (-w.x * w.z)) (-w.tau * w.kappa) pred.direction ∧
          s.DividesBy traps q gamma (.ofVector (w.correctedProducts pred gamma))
            (w.correctedNumber pred gamma) d) ∧
    ((∃ i, w.z i = 0 ∨ w.x i / w.z i ≤ 0) → ∃ b : Breakdown,
      searchDirection traps (factorize backend) p w.iterate beta = .error (.breakdown b) ∧
      b.kind = "LinAlgError") := by
  refine ⟨fun hw => ?_, fun hratio => ⟨_, searchDirection_of_ratio traps backend hratio beta, rfl⟩⟩
  by_cases hrows : LinearIndependent K p.matrix.row
  · obtain ⟨s, u, v, pred, alpha, gamma, q, d, hpasses, hdivides⟩ :=
      exists_dividesBy traps backend hrows hw beta
    have hd := searchDirection_eq_ok_iff_passes.2 ⟨_, _, _, _, hpasses⟩
    refine ⟨⟨fun _ => hrows, fun _ => ⟨d, hd⟩⟩, fun hdependent => absurd hrows hdependent,
      fun d' hd' => ?_⟩
    obtain rfl := Except.ok.inj (hd.symm.trans hd')
    exact ⟨s, u, v, pred, alpha, gamma, q, hpasses, hdivides⟩
  · obtain ⟨order, hd⟩ := searchDirection_of_dependent traps backend hw hrows beta
    refine ⟨⟨?_, fun h => absurd h hrows⟩, fun _ => ⟨_, hd, rfl⟩, fun d hd' => ?_⟩
    · rintro ⟨d, hd'⟩
      cases hd.symm.trans hd'
    · cases hd.symm.trans hd'

/-- From its blind start the identity has a search direction and a zero row has none; a coordinate
of `z` at zero is a breakdown with independent rows as well. -/
theorem searchDirection_iff_independent_programs :
    (∃ d, searchDirection .on (factorize .host) (identityProgram : Problem ℝ)
        (Point.blindStart 1 1 : Point ℝ 1 1).iterate (1 / 10) = .ok d) ∧
      (∃ b : Breakdown, searchDirection .on (factorize .host) (zeroRowProgram : Problem ℝ)
        (Point.blindStart 1 1 : Point ℝ 1 1).iterate (1 / 10) = .error (.breakdown b) ∧
        b.kind = "LinAlgError") ∧
      ∃ b : Breakdown, searchDirection .off (factorize .device) (identityProgram : Problem ℝ)
        (⟨1, 0, 0, 1, 1⟩ : Point ℝ 1 1).iterate (1 / 10) = .error (.breakdown b) ∧
        b.kind = "LinAlgError" := by
  have hw : (Point.blindStart 1 1 : Point ℝ 1 1).Positive := Point.positive_blindStart 1 1
  have hfound := (searchDirection_iff_independent .on .host (identityProgram : Problem ℝ)
    (.blindStart 1 1) (1 / 10)).1 hw
  have hfails := (searchDirection_iff_independent .on .host (zeroRowProgram : Problem ℝ)
    (.blindStart 1 1) (1 / 10)).1 hw
  refine ⟨hfound.1.2 independent_identityProgram, hfails.2.1 dependent_zeroRowProgram, ?_⟩
  exact (searchDirection_iff_independent .off .device (identityProgram : Problem ℝ)
    ⟨1, 0, 0, 1, 1⟩ (1 / 10)).2 ⟨(0 : Fin 1), .inl rfl⟩

end SelfDual
