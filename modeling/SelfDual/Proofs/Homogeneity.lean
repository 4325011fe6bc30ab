import SelfDual.Proofs.Passes
/-!
**The model is homogeneous.**

A multiple of a point stands for the same solution of the linear program, and the method treats it
so.  Residuals are linear in the point and products are quadratic.  The right-hand sides of both
passes follow suit, so the multiple of a solution of the Newton equations solves them at the
multiple of the point, and it is the only one that does.  The ratios that limit a step have
degree zero.

Main definitions:

* `Point.scale` — a point times a number.

Main results:

* `Point.primal_scale`, `Point.dual_scale`, `Point.gap_scale`, `Point.mu_scale` — the degrees of the
  residuals and of the complementarity;
* `IsNewtonStep.scale` — **the Newton equations at a multiple of a point**;
* `stepLength_scale` — the ratio test gives the same step;
* `DirectionAt.scale`, `exists_searchDirection_scale` — **the search direction at a multiple of a
  point**;
* `Point.solution_scale`, `obj_indicators_scale` — the same solution and the same objective;
* `searchDirection_scale` — **an iteration from a multiple of a point leads to the multiple**.
-/

set_option autoImplicit false

open Matrix

namespace SelfDual

variable {K : Type} [ExactField K] {m n : ℕ}

/-! ### Multiples of a point -/

namespace Point

/-- A point times a number. -/
def scale (s : K) (w : Point K m n) : Point K m n where
  x := s • w.x
  y := s • w.y
  z := s • w.z
  tau := s * w.tau
  kappa := s * w.kappa

variable (s : K) (w d : Point K m n)

@[simp] theorem scale_x : (w.scale s).x = s • w.x := rfl

@[simp] theorem scale_y : (w.scale s).y = s • w.y := rfl

@[simp] theorem scale_z : (w.scale s).z = s • w.z := rfl

@[simp] theorem scale_tau : (w.scale s).tau = s * w.tau := rfl

@[simp] theorem scale_kappa : (w.scale s).kappa = s * w.kappa := rfl

theorem Positive.scale {w : Point K m n} (h : w.Positive) {s : K} (hs : 0 < s) :
    (w.scale s).Positive where
  x i := mul_pos hs (h.x i)
  z i := mul_pos hs (h.z i)
  tau := mul_pos hs h.tau
  kappa := mul_pos hs h.kappa

/-- A step from a multiple along the multiple of the direction. -/
theorem move_scale (alpha : K) :
    (w.scale s).move (d.scale s) alpha = (w.move d alpha).scale s := by
  simp only [move, scale, smul_add, smul_comm s alpha, mul_add, mul_left_comm s alpha]

/-- The products have degree two. -/
theorem products_scale : (w.scale s).products = s * s * w.products := by
  simp only [products, scale_x, scale_z, scale_tau, scale_kappa, smul_dotProduct, dotProduct_smul,
    smul_eq_mul]
  ring

theorem mu_scale : (w.scale s).mu = s * s * w.mu := by
  rw [mu, products_scale, mul_div_assoc, mu]

section Residuals

variable (p : Problem K) (w : Point K p.m p.n)

/-- The residuals have degree one. -/
theorem primal_scale : (w.scale s).primal p = s • w.primal p := by
  rw [primal, scale_tau, scale_x, mul_smul, mulVec_smul, ← smul_sub, primal]

theorem dual_scale : (w.scale s).dual p = s • w.dual p := by
  rw [dual, scale_tau, scale_y, scale_z, mul_smul, mulVec_smul, ← smul_sub, ← smul_sub, dual]

theorem gap_scale : (w.scale s).gap p = s * w.gap p := by
  simp only [gap, scale_x, scale_y, scale_kappa, dotProduct_smul, smul_eq_mul]
  ring

end Residuals

/-! ### Right-hand sides -/

theorem affineProducts_scale : -(w.scale s).x * (w.scale s).z = (s * s) • (-w.x * w.z) := by
  funext i
  simp only [scale_x, scale_z, Pi.mul_apply, Pi.neg_apply, Pi.smul_apply, smul_eq_mul]
  ring

theorem affineNumber_scale :
    -(w.scale s).tau * (w.scale s).kappa = s * s * (-w.tau * w.kappa) := by
  rw [scale_tau, scale_kappa]
  ring

theorem correctedProducts_scale (gamma : K) :
    (w.scale s).correctedProducts (d.scale s) gamma = (s * s) • w.correctedProducts d gamma := by
  funext i
  simp only [correctedProducts, mu_scale, scale_x, scale_z, Pi.smul_apply, smul_eq_mul]
  ring

theorem correctedNumber_scale (gamma : K) :
    (w.scale s).correctedNumber (d.scale s) gamma = s * s * w.correctedNumber d gamma := by
  simp only [correctedNumber, mu_scale, scale_tau, scale_kappa]
  ring

end Point

/-! ### The equations at a multiple -/

/-- **The Newton equations at a multiple of a point**: for the right-hand sides of degree two the
multiple of a solution is a solution. -/
theorem IsNewtonStep.scale {p : Problem K} {w d : Point K p.m p.n} {gamma r_tk : K}
    {r_xz : Fin p.n → K} (h : IsNewtonStep p w gamma r_xz r_tk d) (s : K) :
    IsNewtonStep p (w.scale s) gamma ((s * s) • r_xz) (s * s * r_tk) (d.scale s) := by
  constructor
  case primal =>
    rw [Point.primal_scale, smul_comm, ← h.primal, Point.scale_x, Point.scale_tau, mulVec_smul,
      mul_smul, smul_sub]
  case dual =>
    rw [Point.dual_scale, smul_comm, ← h.dual, Point.scale_y, Point.scale_z, Point.scale_tau,
      mulVec_smul, mul_smul, smul_sub, smul_add]
  case gap =>
    simp only [Point.gap_scale, Point.scale_x, Point.scale_y, Point.scale_kappa, dotProduct_smul,
      smul_eq_mul]
    linear_combination s * h.gap
  case products =>
    intro i
    simp only [Point.scale_x, Point.scale_z, Pi.smul_apply, smul_eq_mul]
    linear_combination s * s * h.products i
  case number =>
    rw [Point.scale_tau, Point.scale_kappa, Point.scale_tau, Point.scale_kappa]
    linear_combination s * s * h.number

/-! ### The ratio test -/

/-- The ratios of the coordinates to their decrease have degree zero. -/
theorem RatioStep.scale {ι : Type} {v dv : ι → K} {alpha0 r s : K} (h : RatioStep v dv alpha0 r)
    (hs : 0 < s) : RatioStep (fun i => s * v i) (fun i => s * dv i) alpha0 r := by
  have hratio : ∀ i, s * v i / -(s * dv i) = v i / -dv i := by
    intro i
    rw [← mul_neg, mul_div_mul_left _ _ hs.ne']
  have hsign : ∀ i, s * dv i < 0 ↔ dv i < 0 := by
    intro i
    constructor
    · intro hlt
      by_contra hge
      exact (mul_nonneg hs.le (not_lt.1 hge)).not_gt hlt
    · exact mul_neg_of_pos_of_neg hs
  cases h with
  | free increases eq => exact .free (fun i => mul_nonneg hs.le (increases i)) eq
  | blocked i decreases eq least =>
    refine .blocked i ((hsign i).2 decreases) (by rw [hratio, eq]) fun j hj => ?_
    rw [hratio, hratio]
    exact least j ((hsign j).1 hj)

/-- **The ratio test gives the same step** at a multiple of a point along the multiple of a
direction. -/
theorem stepLength_scale (traps : Traps) (w d : Point K m n) (alpha0 : K) {s : K} (hs : 0 < s) :
    stepLength traps (w.scale s).iterate (d.scale s).direction alpha0 =
      stepLength traps w.iterate d.direction alpha0 := by
  obtain ⟨rx, rz, rtau, rkappa, halpha, hx, hz, htau, hkappa⟩ := exists_ratioSteps traps w d alpha0
  obtain ⟨rx', rz', rtau', rkappa', halpha', hx', hz', htau', hkappa'⟩ :=
    exists_ratioSteps traps (w.scale s) (d.scale s) alpha0
  rw [halpha, halpha', hx'.unique (hx.scale hs), hz'.unique (hz.scale hs),
    htau'.unique (htau.scale hs), hkappa'.unique (hkappa.scale hs)]

/-! ### Search directions -/

/-- **The multiple of a direction is one at the multiple of a point**: both passes give multiples,
and the step between them is the same. -/
theorem DirectionAt.scale {p : Problem K} {w pred d : Point K p.m p.n} {beta alpha s : K}
    (h : DirectionAt p w beta pred alpha d) (hw : w.Positive) (hs : 0 < s) :
    DirectionAt p (w.scale s) beta (pred.scale s) alpha (d.scale s) where
  interior := (hw.scale hs).interior
  independent := h.independent
  regular := by
    obtain ⟨pred', alpha', d', h'⟩ := exists_directionAt h.independent (hw.scale hs) beta
    exact h'.regular
  predictor := by
    rw [Point.affineProducts_scale, Point.affineNumber_scale]
    exact h.predictor.scale s
  step := (stepLength_scale .on w pred 1 hs).trans h.step
  corrector := by
    rw [Point.correctedProducts_scale, Point.correctedNumber_scale]
    exact h.corrector.scale s

/-- **The search direction at a multiple of a point** is the multiple of that at the point. -/
theorem exists_searchDirection_scale {p : Problem K} {w : Point K p.m p.n} (traps : Traps)
    (backend : Backend) (hrows : LinearIndependent K p.matrix.row) (hw : w.Positive) (beta : K)
    {s : K} (hs : 0 < s) :
    ∃ d : Point K p.m p.n,
      searchDirection traps (factorize backend) p w.iterate beta = .ok d.direction ∧
      searchDirection traps (factorize backend) p (w.scale s).iterate beta =
        .ok (d.scale s).direction := by
  obtain ⟨pred, alpha, d, hd⟩ := exists_directionAt hrows hw beta
  exact ⟨d, hd.searchDirection_eq hw traps backend,
    (hd.scale hw hs).searchDirection_eq (hw.scale hs) traps backend⟩

/-! ### Solutions -/

/-- The solution at a multiple of a point is that at the point, also where `tau` is zero. -/
theorem Point.solution_scale (traps : Traps) (w : Point K m n) (hn : 0 < n) {s : K} (hs : 0 < s) :
    (w.scale s).iterate.solution traps = w.iterate.solution traps := by
  by_cases htau : w.tau = 0
  · have htau' : (w.scale s).tau = 0 := by rw [scale_tau, htau, mul_zero]
    rw [Iterate.solution, Iterate.solution, iterate_tau, iterate_tau, htau, htau', iterate_x,
      iterate_x]
    -- A trapped division by zero fails; without traps all quotients are zero.
    cases traps with
    | on => rw [Tensor.div_vector_scalar_zero _ hn, Tensor.div_vector_scalar_zero _ hn]
    | off => simp only [Tensor.div_off_vector_scalar, div_zero]
  · have htau' : (w.scale s).tau ≠ 0 := mul_ne_zero hs.ne' htau
    rw [solution_exact traps htau, solution_exact traps htau', scale_tau, scale_x, mul_inv,
      mul_smul, smul_comm s⁻¹, inv_smul_smul₀ hs.ne']

/-- The objective among the indicators is that of the solution, unless the relative gap has been
divided by zero. -/
theorem obj_indicators (traps : Traps) (p : Problem K) (w : Point K p.m p.n) :
    (indicators traps p w.iterate).map (·.obj) =
      if w.tau + |p.target ⬝ᵥ w.y| = 0 then .error (.breakdown .divisionByZero)
      else w.iterate.solution traps >>= Tensor.dot traps p.c := by
  by_cases hbelow : w.tau + |p.target ⬝ᵥ w.y| = 0
  · rw [if_pos hbelow]
    simp [indicators, residuals_blindStart, Scalar.quotient, hbelow, Point.residuals, p.b_eq,
      p.c_eq, Except.map]
  · have hcomputed : indicators traps p w.iterate = w.iterate.solution traps >>= fun X =>
        Tensor.dot traps p.c X >>= fun obj => .ok { w.indicators p with obj } := by
      simp [indicators, residuals_blindStart, Scalar.quotient_of_ne, hbelow, Point.residuals,
        Point.mu_blindStart, Point.indicators, p.b_eq, p.c_eq, pure, Except.pure]
    rw [if_neg hbelow, hcomputed]
    cases w.iterate.solution traps with
    | error e => rfl
    | ok X =>
      rw [ok_bind, ok_bind]
      cases Tensor.dot traps p.c X <;> rfl

/-- The objective at a multiple of a point is that at the point. -/
theorem obj_indicators_scale (traps : Traps) (p : Problem K) (w : Point K p.m p.n) {s : K}
    (hs : 0 < s) :
    (indicators traps p (w.scale s).iterate).map (·.obj) =
      (indicators traps p w.iterate).map (·.obj) := by
  have hbelow : (w.scale s).tau + |p.target ⬝ᵥ (w.scale s).y| =
      s * (w.tau + |p.target ⬝ᵥ w.y|) := by
    rw [Point.scale_tau, Point.scale_y, dotProduct_smul, smul_eq_mul, abs_mul, abs_of_pos hs,
      mul_add]
  have hzero : s * (w.tau + |p.target ⬝ᵥ w.y|) = 0 ↔ w.tau + |p.target ⬝ᵥ w.y| = 0 :=
    mul_eq_zero_iff_left hs.ne'
  rw [obj_indicators, obj_indicators, hbelow, w.solution_scale traps p.n_pos hs]
  simp only [hzero]

/-! ### Iterations -/

/-- **An iteration from a multiple of a point leads to the multiple of the point that is reached.**
The search direction is the multiple, the step is the same, and so are the solution and the
objective at the points that are reached.  Where `tau` is positive these exist, and it is for a
fraction `alpha0` below one. -/
theorem searchDirection_scale (traps : Traps) (backend : Backend) (p : Problem K)
    (hrows : LinearIndependent K p.matrix.row) {w : Point K p.m p.n} (hw : w.Positive)
    (beta alpha0 : K) {s : K} (hs : 0 < s) :
    ∃ (d : Point K p.m p.n) (alpha : K) (w' : Point K p.m p.n),
      searchDirection traps (factorize backend) p w.iterate beta = .ok d.direction ∧
      searchDirection traps (factorize backend) p (w.scale s).iterate beta =
        .ok (d.scale s).direction ∧
      stepLength traps w.iterate d.direction alpha0 = .ok alpha ∧
      stepLength traps (w.scale s).iterate (d.scale s).direction alpha0 = .ok alpha ∧
      w.iterate.move traps d.direction alpha = .ok w'.iterate ∧
      (w.scale s).iterate.move traps (d.scale s).direction alpha = .ok (w'.scale s).iterate ∧
      (w'.scale s).iterate.solution traps = w'.iterate.solution traps ∧
      (indicators traps p (w'.scale s).iterate).map (·.obj) =
        (indicators traps p w'.iterate).map (·.obj) ∧
      (0 < w'.tau → ∃ (X : Fin p.n → K) (now : Indicators K),
        w'.iterate.solution traps = .ok (.ofVector X) ∧ indicators traps p w'.iterate = .ok now ∧
        now.obj = p.cost ⬝ᵥ X) ∧
      (0 < alpha0 → alpha0 < 1 → 0 < w'.tau) := by
  obtain ⟨d, hd, hd'⟩ := exists_searchDirection_scale traps backend hrows hw beta hs
  obtain ⟨rx, rz, rtau, rkappa, halpha, -⟩ := exists_ratioSteps traps w d alpha0
  refine ⟨d, _, w.move d _, hd, hd', halpha, (stepLength_scale traps w d alpha0 hs).trans halpha,
    Point.move_exact traps w d _, ?_, Point.solution_scale traps _ p.n_pos hs,
    obj_indicators_scale traps p _ hs, fun htau => ?_, fun hpos hlt => ?_⟩
  · rw [Point.move_exact, Point.move_scale]
  · exact ⟨_, _, Point.solution_exact traps htau.ne', indicators_exact traps p htau, rfl⟩
  · obtain ⟨alpha, halpha', hstep⟩ := stepLength_exact traps hw.interior.nonneg d hpos
    obtain rfl := Except.ok.inj (halpha.symm.trans halpha')
    exact (hstep.keeps.positive (sub_pos.2 hlt) hw).tau

/-- Twice the blind start of the identity leads to twice the point that the blind start leads to. -/
theorem searchDirection_scale_identityProgram :
    LinearIndependent ℝ (identityProgram : Problem ℝ).matrix.row ∧
      (Point.blindStart 1 1 : Point ℝ 1 1).Positive ∧ (0 : ℝ) < 2 ∧
      ∃ d w' : Point ℝ 1 1, ∃ alpha : ℝ,
        searchDirection .on (factorize .host) (identityProgram : Problem ℝ)
          ((Point.blindStart 1 1 : Point ℝ 1 1).scale 2).iterate (1 / 10) =
            .ok (d.scale 2).direction ∧
        ((Point.blindStart 1 1 : Point ℝ 1 1).scale 2).iterate.move .on (d.scale 2).direction
          alpha = .ok (w'.scale 2).iterate ∧
        (w'.scale 2).iterate.solution .on = w'.iterate.solution .on := by
  have hw : (Point.blindStart 1 1 : Point ℝ 1 1).Positive := Point.positive_blindStart 1 1
  obtain ⟨d, alpha, w', -, hd, -, -, -, hmove, hsolution, -⟩ :=
    searchDirection_scale .on .host (identityProgram : Problem ℝ) independent_identityProgram hw
      (1 / 10) (1 / 2) (s := 2) two_pos
  exact ⟨independent_identityProgram, hw, two_pos, d, w', alpha, hd, hmove, hsolution⟩

end SelfDual
