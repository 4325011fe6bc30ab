import SelfDual.NewtonSystem
import SelfDual.Proofs.HomogeneousModel
import SelfDual.Proofs.SaddlePoint
/-!
**The Newton equations of the homogeneous model.**

A direction removes a fraction of the residuals and changes the products by given amounts.  What is
computed eliminates the changes of `z` and `kappa`, splits off the change of `tau` with a second
solution `(p, q)`, and is left with saddle-point systems.  This module recovers the five equations
from that elimination, and shows that they have no other solution unless the divisor of the change
of `tau`, here called its pivot, is zero.

Main definitions:

* `IsNewtonStep` — the five equations;
* `Point.Regular` — a point where they have one solution at most;
* `Point.pivot` — the divisor of the change of `tau`;
* `Point.backSubstitute` — the change put together from two solutions of the saddle-point system;
* `NewtonSystem.exact`, `NewtonSystem.Assembled` — the system at a point, and what its parts are
  good for.

Main results:

* `IsNewtonStep.scales`, `IsNewtonStep.cross_eq` — what a step does to the residuals and to the
  products;
* `Point.pivot_eq` — the pivot is a sum of squares plus `kappa / tau`;
* `Point.isNewtonStep_backSubstitute`, `IsNewtonStep.eq_backSubstitute` — **back substitution solves
  the equations, and nothing else does**;
* `NewtonSystem.assemble_cases` — **the system can be assembled** exactly where the ratios `x / z`
  are positive and the rows are independent;
* `NewtonSystem.Assembled.direction_of_pivot_ne_zero`, `NewtonSystem.direction_cases` — **the
  direction that is computed solves the equations**, unless the pivot is zero and the computation
  breaks down.
-/

set_option autoImplicit false

open Matrix

namespace SelfDual

variable {K : Type} [ExactField K]

/-! ### The equations -/

/-- **The Newton equations** at `w` for a fraction `gamma` of the residuals that stays and for the
changes `r_xz` and `r_tk` of the products. -/
structure IsNewtonStep (p : Problem K) (w : Point K p.m p.n) (gamma : K) (r_xz : Fin p.n → K)
    (r_tk : K) (d : Point K p.m p.n) : Prop where
  primal : p.matrix *ᵥ d.x - d.tau • p.target = (1 - gamma) • w.primal p
  dual : p.matrixᵀ *ᵥ d.y + d.z - d.tau • p.cost = (1 - gamma) • w.dual p
  gap : -(p.cost ⬝ᵥ d.x) + p.target ⬝ᵥ d.y - d.kappa = (1 - gamma) * w.gap p
  products : ∀ i, w.z i * d.x i + w.x i * d.z i = r_xz i
  number : w.kappa * d.tau + w.tau * d.kappa = r_tk

namespace IsNewtonStep

variable {p : Problem K} {w d : Point K p.m p.n} {gamma r_tk : K} {r_xz : Fin p.n → K}

/-- A step has the residuals of the point, less what stays of them, with the opposite sign. -/
theorem scales (h : IsNewtonStep p w gamma r_xz r_tk d) :
    Point.Scales p w d (-(1 - gamma)) where
  primal := by
    rw [neg_smul, ← h.primal, Point.primal]
    abel
  dual := by
    rw [neg_smul, ← h.dual, Point.dual]
    abel
  gap := by
    rw [neg_mul, ← h.gap, Point.gap]
    ring

/-- A step changes the sum of the products by the sum of the right-hand sides. -/
theorem cross_eq (h : IsNewtonStep p w gamma r_xz r_tk d) : w.cross d = ∑ i, r_xz i + r_tk := by
  have hsum : w.x ⬝ᵥ d.z + d.x ⬝ᵥ w.z = ∑ i, r_xz i := by
    rw [dotProduct, dotProduct, ← Finset.sum_add_distrib]
    refine Finset.sum_congr rfl fun i _ => ?_
    rw [← h.products i]
    ring
  rw [Point.cross, hsum, ← h.number]
  ring

end IsNewtonStep

/-- At a regular point the Newton equations have one solution at most, for every right-hand side. -/
def Point.Regular (p : Problem K) (w : Point K p.m p.n) : Prop :=
  ∀ gamma r_xz r_tk d d', IsNewtonStep p w gamma r_xz r_tk d →
    IsNewtonStep p w gamma r_xz r_tk d' → d' = d

/-! ### Elimination -/

/-- The product `-c · u + b · v`. -/
def Problem.coupling (p : Problem K) (u : Fin p.n → K) (v : Fin p.m → K) : K :=
  -(p.cost ⬝ᵥ u) + p.target ⬝ᵥ v

theorem Problem.coupling_add_smul (p : Problem K) (u u₀ : Fin p.n → K) (v v₀ : Fin p.m → K)
    (t : K) : p.coupling (u + t • u₀) (v + t • v₀) = p.coupling u v + t * p.coupling u₀ v₀ := by
  simp only [coupling, dotProduct_add, dotProduct_smul, smul_eq_mul]
  ring

namespace Point

variable {p : Problem K}

/-- The divisor of the change of `tau`, from the solution `(u, v)` for cost and target. -/
def pivot (p : Problem K) (w : Point K p.m p.n) (u : Fin p.n → K) (v : Fin p.m → K) : K :=
  w.kappa / w.tau + p.coupling u v

/-- **The pivot is a sum of squares** plus `kappa / tau`. -/
theorem pivot_eq {w : Point K p.m p.n} {u : Fin p.n → K} {v : Fin p.m → K}
    (h : SolvesSaddle p.matrix (w.x / w.z) p.cost p.target u v) :
    w.pivot p u v = w.kappa / w.tau + ∑ i, u i * u i / (w.x i / w.z i) := by
  rw [pivot, Problem.coupling, ← neg_dotProduct, h.energy]
  rfl

/-- The pivot is positive where `kappa` is. -/
theorem pivot_pos {w : Point K p.m p.n} {u : Fin p.n → K} {v : Fin p.m → K}
    (h : SolvesSaddle p.matrix (w.x / w.z) p.cost p.target u v)
    (hratio : ∀ i, 0 < w.x i / w.z i) (htau : 0 < w.tau) (hkappa : 0 < w.kappa) :
    0 < w.pivot p u v := by
  have hsum : 0 ≤ ∑ i, u i * u i / (w.x i / w.z i) := SolvesSaddle.energy_nonneg hratio u
  have hfirst : 0 < w.kappa / w.tau := div_pos hkappa htau
  rw [pivot_eq h]
  exact add_pos_of_pos_of_nonneg hfirst hsum

end Point

/-- **Back substitution**: the change put together from the solution `(u₀, v₀)` for cost and target
and the solution `(u, v)` for a right-hand side. -/
def Point.backSubstitute (p : Problem K) (w : Point K p.m p.n) (gamma : K) (r_xz : Fin p.n → K)
    (r_tk : K) (u₀ u : Fin p.n → K) (v₀ v : Fin p.m → K) : Point K p.m p.n :=
  let dtau := ((1 - gamma) * w.gap p + r_tk / w.tau - p.coupling u v) / w.pivot p u₀ v₀
  let dx := u + dtau • u₀
  { x := dx
    y := v + dtau • v₀
    z := (r_xz - w.z * dx) / w.x
    tau := dtau
    kappa := (r_tk - w.kappa * dtau) / w.tau }

section Elimination

variable {p : Problem K} {w d : Point K p.m p.n} {gamma r_tk : K} {r_xz : Fin p.n → K}
  {u u₀ : Fin p.n → K} {v v₀ : Fin p.m → K}

/-- Back substitution solves the Newton equations unless the pivot is zero. -/
theorem Point.isNewtonStep_backSubstitute (hx : ∀ i, w.x i ≠ 0) (htau : w.tau ≠ 0)
    (hpivot : w.pivot p u₀ v₀ ≠ 0)
    (h₀ : SolvesSaddle p.matrix (w.x / w.z) p.cost p.target u₀ v₀)
    (h : SolvesSaddle p.matrix (w.x / w.z) ((1 - gamma) • w.dual p - r_xz / w.x)
      ((1 - gamma) • w.primal p) u v) :
    IsNewtonStep p w gamma r_xz r_tk (w.backSubstitute p gamma r_xz r_tk u₀ u v₀ v) := by
  generalize hd : w.backSubstitute p gamma r_xz r_tk u₀ u v₀ v = d
  have hdx : d.x = u + d.tau • u₀ := hd ▸ rfl
  have hdy : d.y = v + d.tau • v₀ := hd ▸ rfl
  have hdz : d.z = (r_xz - w.z * d.x) / w.x := hd ▸ rfl
  have hdkappa : d.kappa = (r_tk - w.kappa * d.tau) / w.tau := hd ▸ rfl
  have hdtau : d.tau * w.pivot p u₀ v₀ =
      (1 - gamma) * w.gap p + r_tk / w.tau - p.coupling u v := hd ▸ div_mul_cancel₀ _ hpivot
  -- Every equation has been used for one part of the change, the gap equation for that of `tau`.
  constructor
  case primal =>
    rw [hdx, mulVec_add, mulVec_smul, h.feasible, h₀.feasible, add_sub_cancel_right]
  case dual =>
    funext i
    have hi := congrFun h.stationary i
    have hi₀ := congrFun h₀.stationary i
    have hzi : d.z i = r_xz i / w.x i - u i / (w.x i / w.z i) -
        d.tau * (u₀ i / (w.x i / w.z i)) := by
      simp only [hdz, hdx, Pi.sub_apply, Pi.div_apply, Pi.mul_apply, Pi.add_apply, Pi.smul_apply,
        smul_eq_mul, div_div_eq_mul_div]
      ring
    simp only [Pi.sub_apply, Pi.div_apply, Pi.smul_apply, smul_eq_mul] at hi hi₀
    simp only [hdy, mulVec_add, mulVec_smul, Pi.sub_apply, Pi.add_apply, Pi.smul_apply,
      smul_eq_mul, hzi]
    linear_combination hi + d.tau * hi₀
  case gap =>
    have hcoupling : p.coupling d.x d.y = p.coupling u v + d.tau * p.coupling u₀ v₀ := by
      rw [hdx, hdy, p.coupling_add_smul]
    rw [Point.pivot] at hdtau
    change p.coupling d.x d.y - d.kappa = _
    rw [hcoupling, hdkappa, sub_div]
    linear_combination hdtau
  case products =>
    intro i
    rw [hdz, Pi.div_apply, Pi.sub_apply, Pi.mul_apply, mul_div_cancel₀ _ (hx i)]
    ring
  case number =>
    rw [hdkappa, mul_div_cancel₀ _ htau]
    ring

namespace IsNewtonStep

/-- The change of `z` is determined by that of `x`. -/
theorem z_eq (hd : IsNewtonStep p w gamma r_xz r_tk d) (hx : ∀ i, w.x i ≠ 0) :
    d.z = (r_xz - w.z * d.x) / w.x := by
  funext i
  rw [Pi.div_apply, Pi.sub_apply, Pi.mul_apply, ← hd.products i, add_sub_cancel_left,
    mul_div_cancel_left₀ _ (hx i)]

/-- The change of `kappa` is determined by that of `tau`. -/
theorem kappa_eq (hd : IsNewtonStep p w gamma r_xz r_tk d) (htau : w.tau ≠ 0) :
    d.kappa = (r_tk - w.kappa * d.tau) / w.tau := by
  rw [← hd.number, add_sub_cancel_left, mul_div_cancel_left₀ _ htau]

/-- Without its multiple of `(u₀, v₀)` a step solves a saddle-point system that the change of `tau`
is not part of. -/
theorem solvesSaddle (hd : IsNewtonStep p w gamma r_xz r_tk d) (hx : ∀ i, w.x i ≠ 0)
    (h₀ : SolvesSaddle p.matrix (w.x / w.z) p.cost p.target u₀ v₀) :
    SolvesSaddle p.matrix (w.x / w.z) ((1 - gamma) • w.dual p - r_xz / w.x)
      ((1 - gamma) • w.primal p) (d.x - d.tau • u₀) (d.y - d.tau • v₀) where
  stationary := by
    funext i
    have hdual := congrFun hd.dual i
    have hi₀ := congrFun h₀.stationary i
    simp only [hd.z_eq hx, Pi.sub_apply, Pi.add_apply, Pi.smul_apply, Pi.div_apply, Pi.mul_apply,
      smul_eq_mul] at hdual hi₀
    simp only [mulVec_sub, mulVec_smul, Pi.sub_apply, Pi.smul_apply, Pi.div_apply, Pi.mul_apply,
      smul_eq_mul, div_div_eq_mul_div] at hi₀ ⊢
    linear_combination hdual - d.tau * hi₀
  feasible := by rw [mulVec_sub, mulVec_smul, h₀.feasible, hd.primal]

/-- **Uniqueness**: with independent rows and a pivot other than zero every solution of the Newton
equations is the one of back substitution. -/
theorem eq_backSubstitute (hd : IsNewtonStep p w gamma r_xz r_tk d)
    (hratio : ∀ i, 0 < w.x i / w.z i) (htau : w.tau ≠ 0)
    (hrows : LinearIndependent K p.matrix.row) (hpivot : w.pivot p u₀ v₀ ≠ 0)
    (h₀ : SolvesSaddle p.matrix (w.x / w.z) p.cost p.target u₀ v₀)
    (h : SolvesSaddle p.matrix (w.x / w.z) ((1 - gamma) • w.dual p - r_xz / w.x)
      ((1 - gamma) • w.primal p) u v) :
    d = w.backSubstitute p gamma r_xz r_tk u₀ u v₀ v := by
  have hx : ∀ i, w.x i ≠ 0 := fun i => (div_ne_zero_iff.1 (hratio i).ne').1
  have hz := hd.z_eq hx
  have hkappa := hd.kappa_eq htau
  obtain ⟨hu, hv⟩ := (hd.solvesSaddle hx h₀).eq_of_independent hratio hrows h
  have hdx : d.x = u + d.tau • u₀ := sub_eq_iff_eq_add.1 hu
  have hdy : d.y = v + d.tau • v₀ := sub_eq_iff_eq_add.1 hv
  have hcoupling : p.coupling d.x d.y = p.coupling u v + d.tau * p.coupling u₀ v₀ := by
    rw [hdx, hdy, p.coupling_add_smul]
  -- What is left is the gap equation, which determines the change of `tau`.
  have hdtau : d.tau = ((1 - gamma) * w.gap p + r_tk / w.tau - p.coupling u v) /
      w.pivot p u₀ v₀ := by
    have hgap : p.coupling d.x d.y - d.kappa = (1 - gamma) * w.gap p := hd.gap
    rw [hcoupling, hkappa, sub_div] at hgap
    rw [eq_div_iff hpivot, Point.pivot]
    linear_combination hgap
  rw [hdtau] at hdx hdy hkappa
  rw [hdx] at hz
  exact Point.ext hdx hdy hz hdtau hkappa

end IsNewtonStep

end Elimination

/-! ### The system as it is assembled -/

namespace NewtonSystem

/-- The system at a point, from a factorization and the solution for cost and target. -/
def exact (p : Problem K) (w : Point K p.m p.n) (f : Factorization K) (u : Fin p.n → K)
    (v : Fin p.m → K) : NewtonSystem K where
  problem := p
  point := w.iterate
  residuals := w.residuals p
  scaling := .ofVector (w.x / w.z)
  factorization := f
  p := .ofVector u
  q := .ofVector v

/-- What the parts of an assembled system are good for. -/
structure Assembled (p : Problem K) (w : Point K p.m p.n) (f : Factorization K) (u : Fin p.n → K)
    (v : Fin p.m → K) : Prop where
  ratio_pos : ∀ i, 0 < w.x i / w.z i
  independent : LinearIndependent K p.matrix.row
  inverts : f.Inverts (normal p.matrix (w.x / w.z))
  saddle : SolvesSaddle p.matrix (w.x / w.z) p.cost p.target u v

variable {p : Problem K} {w : Point K p.m p.n}

/-- Where a ratio `x / z` is not positive, the scaling is refused. -/
theorem assemble_of_not_ratio_pos (traps : Traps) (backend : Backend) (p : Problem K)
    {w : Point K p.m p.n} (h : ¬∀ i, 0 < w.x i / w.z i) :
    assemble traps (factorize backend) p w.iterate = .error (.breakdown .ratioNotPositive) := by
  classical
  rw [assemble, residuals_exact]
  simp [scalingRatio_exact, h]

/-- **Where the ratios `x / z` are positive**, the normal equations can be factorized for
independent rows and for no others. -/
theorem assemble_of_ratio_pos (traps : Traps) (backend : Backend) (p : Problem K)
    {w : Point K p.m p.n} (h : ∀ i, 0 < w.x i / w.z i) :
    (∃ f u v, assemble traps (factorize backend) p w.iterate = .ok (exact p w f u v) ∧
      Assembled p w f u v) ∨
    (∃ order, assemble traps (factorize backend) p w.iterate =
        .error (.breakdown (.notPositiveDefinite backend order)) ∧
      ¬LinearIndependent K p.matrix.row) := by
  classical
  have hscaling : scalingRatio (.ofVector w.x) (.ofVector w.z) = .ok (.ofVector (w.x / w.z)) := by
    rw [scalingRatio_exact, if_pos h]
  have hd : ∀ i, 0 < (w.x / w.z) i := h
  rcases factorize_normal_cases backend p.matrix hd with
    ⟨f, hf, hinv, hrows⟩ | ⟨order, hf, hrows⟩
  · obtain ⟨u, v, hsolve, hsaddle⟩ :=
      saddleSolve_exact traps hinv (fun i => (h i).ne') p.cost p.target
    refine .inl ⟨f, u, v, ?_, h, hrows, hinv, hsaddle⟩
    rw [assemble, residuals_exact]
    simp [p.A_eq, p.b_eq, p.c_eq, hscaling, hf, hsolve, exact, pure, Except.pure]
  · refine .inr ⟨order, ?_, hrows⟩
    rw [assemble, residuals_exact]
    simp [p.A_eq, hscaling, hf]

/-- **The system can be assembled** exactly where the ratios `x / z` are positive and the rows are
independent; all else is a breakdown. -/
theorem assemble_cases (traps : Traps) (backend : Backend) (p : Problem K) (w : Point K p.m p.n) :
    (∃ f u v, assemble traps (factorize backend) p w.iterate = .ok (exact p w f u v) ∧
      Assembled p w f u v) ∨
    (∃ b, assemble traps (factorize backend) p w.iterate = .error (.breakdown b) ∧
      ((∀ i, 0 < w.x i / w.z i) → ¬LinearIndependent K p.matrix.row)) := by
  by_cases hratio : ∀ i, 0 < w.x i / w.z i
  · rcases assemble_of_ratio_pos traps backend p hratio with hassembled | ⟨order, hs, hrows⟩
    · exact .inl hassembled
    · exact .inr ⟨_, hs, fun _ => hrows⟩
  · exact .inr ⟨_, assemble_of_not_ratio_pos traps backend p hratio, fun h => absurd h hratio⟩

@[simp] theorem coupling_exact (traps : Traps) (p : Problem K) (u : Fin p.n → K)
    (v : Fin p.m → K) :
    coupling traps p (.ofVector u) (.ofVector v) =
      .ok (.scalar (p.coupling u v)) := by
  simp [coupling, Problem.coupling, p.b_eq, p.c_eq]

/-- The saddle-point system of an assembled one has a solution, which is the one computed. -/
theorem Assembled.exists_saddleSolve {f : Factorization K} {u₀ : Fin p.n → K} {v₀ : Fin p.m → K}
    (h : Assembled p w f u₀ v₀) (traps : Traps) (r₁ : Fin p.n → K) (r₂ : Fin p.m → K) :
    ∃ u v, saddleSolve traps f (.ofMatrix p.matrix) (.ofVector (w.x / w.z)) (.ofVector r₁)
        (.ofVector r₂) = .ok (.ofVector u, .ofVector v) ∧
      SolvesSaddle p.matrix (w.x / w.z) r₁ r₂ u v :=
  saddleSolve_exact traps h.inverts (fun i => (h.ratio_pos i).ne') r₁ r₂

theorem Assembled.x_ne_zero {f : Factorization K} {u₀ : Fin p.n → K} {v₀ : Fin p.m → K}
    (h : Assembled p w f u₀ v₀) (i : Fin p.n) : w.x i ≠ 0 :=
  (div_ne_zero_iff.1 (h.ratio_pos i).ne').1

/-- Where the system can be assembled, a point is regular unless the pivot is zero. -/
theorem Assembled.regular {f : Factorization K} {u₀ : Fin p.n → K} {v₀ : Fin p.m → K}
    (h : Assembled p w f u₀ v₀) (htau : w.tau ≠ 0) (hpivot : w.pivot p u₀ v₀ ≠ 0) :
    w.Regular p := by
  intro gamma r_xz r_tk d d' hd hd'
  obtain ⟨u, v, -, hsaddle⟩ := h.exists_saddleSolve .on
    ((1 - gamma) • w.dual p - r_xz / w.x) ((1 - gamma) • w.primal p)
  rw [hd.eq_backSubstitute h.ratio_pos htau h.independent hpivot h.saddle hsaddle,
    hd'.eq_backSubstitute h.ratio_pos htau h.independent hpivot h.saddle hsaddle]

/-- **The direction that is computed solves the Newton equations** where the pivot is not zero,
with traps and without. -/
theorem Assembled.direction_of_pivot_ne_zero {f : Factorization K} {u₀ : Fin p.n → K}
    {v₀ : Fin p.m → K} (h : Assembled p w f u₀ v₀) (htau : w.tau ≠ 0)
    (hpivot : w.pivot p u₀ v₀ ≠ 0) (traps : Traps) (gamma : K) (r_xz : Fin p.n → K) (r_tk : K) :
    ∃ d, (exact p w f u₀ v₀).direction traps gamma (.ofVector r_xz) r_tk = .ok d.direction ∧
      IsNewtonStep p w gamma r_xz r_tk d := by
  obtain ⟨u, v, hsolve, hsaddle⟩ := h.exists_saddleSolve traps
    ((1 - gamma) • w.dual p - r_xz / w.x) ((1 - gamma) • w.primal p)
  have hbelow : w.kappa / w.tau + p.coupling u₀ v₀ ≠ 0 := hpivot
  refine ⟨w.backSubstitute p gamma r_xz r_tk u₀ u v₀ v, ?_,
    Point.isNewtonStep_backSubstitute h.x_ne_zero htau hpivot h.saddle hsaddle⟩
  simp [direction, exact, Point.residuals, Tensor.div_vectors _ _ h.x_ne_zero, p.A_eq, hsolve,
    Scalar.quotient_of_ne htau, hbelow, Tensor.div_scalars, htau, Point.backSubstitute,
    Point.pivot, Point.direction]

/-- The pivot is the only divisor that can be zero, and with traps the computation ends there. -/
theorem Assembled.direction_of_pivot_eq_zero {f : Factorization K} {u₀ : Fin p.n → K}
    {v₀ : Fin p.m → K} (h : Assembled p w f u₀ v₀) (htau : w.tau ≠ 0)
    (hpivot : w.pivot p u₀ v₀ = 0) (gamma : K) (r_xz : Fin p.n → K) (r_tk : K) :
    (exact p w f u₀ v₀).direction .on gamma (.ofVector r_xz) r_tk =
      .error (.breakdown (.trapped .zeroDivide .divide true)) := by
  obtain ⟨u, v, hsolve, -⟩ := h.exists_saddleSolve .on
    ((1 - gamma) • w.dual p - r_xz / w.x) ((1 - gamma) • w.primal p)
  have hbelow : w.kappa / w.tau + p.coupling u₀ v₀ = 0 := hpivot
  simp [direction, exact, Point.residuals, Tensor.div_vectors _ _ h.x_ne_zero, p.A_eq, hsolve,
    Scalar.quotient_of_ne htau, hbelow, Tensor.div_scalars_zero]

/-- **What the computation of a direction ends with**: the solution of the Newton equations, or a
breakdown if the pivot is zero. -/
theorem direction_cases {f : Factorization K} {u₀ : Fin p.n → K} {v₀ : Fin p.m → K}
    (h : Assembled p w f u₀ v₀) (htau : w.tau ≠ 0) (gamma : K) (r_xz : Fin p.n → K) (r_tk : K) :
    (∃ d, (exact p w f u₀ v₀).direction .on gamma (.ofVector r_xz) r_tk = .ok d.direction ∧
      w.Regular p ∧ IsNewtonStep p w gamma r_xz r_tk d) ∨
    (w.pivot p u₀ v₀ = 0 ∧ (exact p w f u₀ v₀).direction .on gamma (.ofVector r_xz) r_tk =
      .error (.breakdown (.trapped .zeroDivide .divide true))) := by
  by_cases hpivot : w.pivot p u₀ v₀ = 0
  · exact .inr ⟨hpivot, h.direction_of_pivot_eq_zero htau hpivot gamma r_xz r_tk⟩
  · obtain ⟨d, hd, hstep⟩ := h.direction_of_pivot_ne_zero htau hpivot .on gamma r_xz r_tk
    exact .inl ⟨d, hd, h.regular htau hpivot, hstep⟩

/-- No direction can be computed where `tau` is zero. -/
theorem direction_of_tau_eq_zero {f : Factorization K} {u₀ : Fin p.n → K} {v₀ : Fin p.m → K}
    (h : Assembled p w f u₀ v₀) (htau : w.tau = 0) (gamma : K) (r_xz : Fin p.n → K) (r_tk : K) :
    (exact p w f u₀ v₀).direction .on gamma (.ofVector r_xz) r_tk =
      .error (.breakdown .divisionByZero) := by
  obtain ⟨u, v, hsolve, -⟩ := h.exists_saddleSolve .on
    ((1 - gamma) • w.dual p - r_xz / w.x) ((1 - gamma) • w.primal p)
  simp [direction, exact, Point.residuals, Tensor.div_vectors _ _ h.x_ne_zero, p.A_eq, hsolve,
    Scalar.quotient, htau]

end NewtonSystem

end SelfDual
