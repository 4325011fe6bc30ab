import SelfDual.Proofs.NewtonStep
import SelfDual.Proofs.RatioTest
/-!
**The search direction.**

A predictor aims at the boundary; how far it could go sets the centering of the corrector, whose
right-hand side carries the products of the predictor.  These products cancel in the sum over all
coordinates, so a step along the corrector multiplies all residuals and the complementarity by one
and the same number.

Main definitions:

* `centering` — the centering that a predictor step asks for;
* `Point.correctedProducts`, `Point.correctedNumber` — the right-hand side of the corrector;
* `IsSearchDirection` — a predictor, its step, and the corrector that follows.

Main results:

* `IsSearchDirection.centering_lt_one` — the centering lies in `[0, 1)`;
* `IsSearchDirection.mu_move`, `IsSearchDirection.scales_move` — **a step multiplies residuals and
  complementarity by the same number**;
* `IsSearchDirection.kappa_nonneg` — where `kappa` is zero it does not decrease;
* `NewtonSystem.Assembled.exists_passes` — both passes, where the pivot is not zero;
* `searchDirection_of_pivot` — **the direction that is computed** in the interior is such a
  corrector, unless the pivot is zero;
* `searchDirection_cases` — at a positive point with independent rows there is no other outcome.
-/

set_option autoImplicit false

open Matrix

namespace SelfDual

variable {K : Type} [ExactField K]

/-! ### Centering -/

/-- The centering that a predictor step of length `alpha` asks for. -/
def centering (beta alpha : K) : K := (1 - alpha) * (1 - alpha) * min beta (1 - alpha)

@[simp] theorem correctorGamma_exact (alpha beta : K) :
    correctorGamma alpha beta = .ok (centering beta alpha) := by
  simp [correctorGamma, centering]

theorem centering_nonneg {alpha beta : K} (halpha : alpha ≤ 1) (hbeta : 0 ≤ beta) :
    0 ≤ centering beta alpha :=
  mul_nonneg (mul_self_nonneg _) (le_min hbeta (sub_nonneg.2 halpha))

theorem centering_le {alpha beta : K} (hnonneg : 0 ≤ alpha) (halpha : alpha ≤ 1)
    (hbeta : 0 ≤ beta) : centering beta alpha ≤ beta := by
  have hrest : 0 ≤ 1 - alpha := sub_nonneg.2 halpha
  have hle : 1 - alpha ≤ 1 := sub_le_self 1 hnonneg
  have hsquare : (1 - alpha) * (1 - alpha) ≤ 1 := mul_le_one₀ hle hrest hle
  calc centering beta alpha
      ≤ 1 * min beta (1 - alpha) := mul_le_mul_of_nonneg_right hsquare (le_min hbeta hrest)
    _ ≤ beta := (one_mul _).trans_le (min_le_left _ _)

/-! ### Right-hand sides -/

namespace Point

variable {m n : ℕ}

/-- The change of the products `x z` that the corrector asks for. -/
def correctedProducts (w pred : Point K m n) (gamma : K) : Fin n → K :=
  fun i => gamma * w.mu - w.x i * w.z i - pred.x i * pred.z i

/-- The change of the product `tau kappa` that the corrector asks for. -/
def correctedNumber (w pred : Point K m n) (gamma : K) : K :=
  gamma * w.mu - w.tau * w.kappa - pred.tau * pred.kappa

/-- The predictor asks for the products to vanish. -/
theorem sum_affine (w : Point K m n) :
    ∑ i, (-w.x * w.z) i + -w.tau * w.kappa = -w.products := by
  simp only [products, dotProduct, Pi.mul_apply, Pi.neg_apply, neg_mul, Finset.sum_neg_distrib]
  ring

/-- The corrector asks for a part of the products to vanish, with those of the predictor. -/
theorem sum_corrected (w pred : Point K m n) (gamma : K) :
    ∑ i, w.correctedProducts pred gamma i + w.correctedNumber pred gamma =
      -(1 - gamma) * w.products - pred.products := by
  have hcount : ∑ _i : Fin n, gamma * w.mu = n * (gamma * w.mu) := by simp
  have hmu : ((n : K) + 1) * w.mu = w.products := w.count_mul_mu
  simp only [correctedProducts, correctedNumber, Finset.sum_sub_distrib, hcount]
  simp only [products, dotProduct] at hmu ⊢
  linear_combination gamma * hmu

end Point

/-! ### The corrected direction -/

/-- A predictor, a step along it, and the corrector with the centering that the step asks for. -/
structure IsSearchDirection (p : Problem K) (w : Point K p.m p.n) (beta : K)
    (pred : Point K p.m p.n) (alpha : K) (d : Point K p.m p.n) : Prop where
  predictor : IsNewtonStep p w 0 (-w.x * w.z) (-w.tau * w.kappa) pred
  step : w.IsStep pred 1 alpha
  corrector : IsNewtonStep p w (centering beta alpha)
    (w.correctedProducts pred (centering beta alpha))
    (w.correctedNumber pred (centering beta alpha)) d

namespace IsSearchDirection

variable {p : Problem K} {w pred d v : Point K p.m p.n} {beta alpha theta : K}

theorem centering_nonneg (h : IsSearchDirection p w beta pred alpha d) (hbeta : 0 ≤ beta) :
    0 ≤ centering beta alpha :=
  SelfDual.centering_nonneg h.step.le_one hbeta

theorem centering_lt_one (h : IsSearchDirection p w beta pred alpha d) (hbeta : 0 ≤ beta)
    (hlt : beta < 1) : centering beta alpha < 1 :=
  (centering_le h.step.nonneg h.step.le_one hbeta).trans_lt hlt

/-- **The products of the predictor cancel.** -/
theorem predictor_products (h : IsSearchDirection p w beta pred alpha d) : pred.products = 0 := by
  have hcross : w.cross pred = -w.products := by
    rw [h.predictor.cross_eq, w.sum_affine]
  rw [Point.products_of_scales h.predictor.scales, hcross, sub_zero]
  ring

/-- To first order the corrector removes a part of the products. -/
theorem corrector_cross (h : IsSearchDirection p w beta pred alpha d) :
    w.cross d = -(1 - centering beta alpha) * w.products := by
  rw [h.corrector.cross_eq, w.sum_corrected, h.predictor_products, sub_zero]

/-- The products of the corrector cancel as well. -/
theorem corrector_products (h : IsSearchDirection p w beta pred alpha d) : d.products = 0 := by
  rw [Point.products_of_scales h.corrector.scales, h.corrector_cross]
  ring

/-- **A step multiplies the complementarity.** -/
theorem mu_move (h : IsSearchDirection p w beta pred alpha d) (t : K) :
    (w.move d t).mu = (1 - t * (1 - centering beta alpha)) * w.mu := by
  rw [Point.mu, Point.mu, Point.products_move, h.corrector_cross, h.corrector_products]
  ring

/-- **A step multiplies all residuals by the same number.** -/
theorem scales_move (h : IsSearchDirection p w beta pred alpha d)
    (hw : Point.Scales p v w theta) (t : K) :
    Point.Scales p v (w.move d t) ((1 - t * (1 - centering beta alpha)) * theta) := by
  have hd : Point.Scales p w d (-(1 - centering beta alpha)) := h.corrector.scales
  constructor
  · rw [Point.primal_move, hd.primal, hw.primal]
    module
  · rw [Point.dual_move, hd.dual, hw.dual]
    module
  · rw [Point.gap_move, hd.gap, hw.gap]
    ring

/-- Where `kappa` is zero, the predictor keeps it and the corrector does not decrease it. -/
theorem kappa_nonneg (h : IsSearchDirection p w beta pred alpha d) (hbeta : 0 ≤ beta)
    (hw : w.Nonneg) (htau : 0 < w.tau) (hkappa : w.kappa = 0) : 0 ≤ d.kappa := by
  -- The predictor keeps `kappa`, so the corrector has no second-order term for it.
  have hpred : pred.kappa = 0 := by
    have hnumber := h.predictor.number
    rw [hkappa, zero_mul, zero_add, mul_zero] at hnumber
    exact (mul_eq_zero.1 hnumber).resolve_left htau.ne'
  have hmu : 0 ≤ w.mu := hw.mu_nonneg
  have hnumber : w.tau * d.kappa = centering beta alpha * w.mu := by
    have hcorrector := h.corrector.number
    rw [Point.correctedNumber, hkappa, hpred] at hcorrector
    linear_combination hcorrector
  have hproduct : 0 ≤ w.tau * d.kappa :=
    hnumber ▸ mul_nonneg (h.centering_nonneg hbeta) hmu
  exact nonneg_of_mul_nonneg_right hproduct htau

/-- In the interior a step along the corrector has positive length. -/
theorem step_pos (h : IsSearchDirection p w beta pred alpha d) (hbeta : 0 ≤ beta) (hw : w.Interior)
    {alpha0 t : K} (hstep : w.IsStep d alpha0 t) : 0 < t := by
  refine hstep.pos (hw.unblocked fun hkappa => ?_)
  exact h.kappa_nonneg hbeta hw.nonneg hw.tau hkappa

end IsSearchDirection

/-! ### The direction as it is computed -/

namespace NewtonSystem

variable {p : Problem K} {w : Point K p.m p.n} {f : Factorization K} {u : Fin p.n → K}
  {v : Fin p.m → K}

theorem predictor_exact (traps : Traps) :
    (exact p w f u v).predictor traps =
      (exact p w f u v).direction traps 0 (.ofVector (-w.x * w.z)) (-w.tau * w.kappa) := by
  simp [predictor, exact]

theorem corrector_exact (traps : Traps) (pred : Point K p.m p.n) (gamma : K) :
    (exact p w f u v).corrector traps pred.direction gamma =
      (exact p w f u v).direction traps gamma (.ofVector (w.correctedProducts pred gamma))
        (w.correctedNumber pred gamma) := by
  have hproducts : ((fun i => gamma * w.mu - w.x i * w.z i) - pred.x * pred.z) =
      w.correctedProducts pred gamma := rfl
  simp [corrector, centredProducts, centredNumber, exact, Point.residuals, Point.correctedNumber,
    hproducts]

end NewtonSystem

section Computed

variable {p : Problem K} {w : Point K p.m p.n}

/-- Without a pivot there is no `kappa`. -/
theorem NewtonSystem.Assembled.kappa_eq_zero {f : Factorization K} {u : Fin p.n → K}
    {v : Fin p.m → K} (h : Assembled p w f u v) (hw : w.Interior) (hpivot : w.pivot p u v = 0) :
    w.kappa = 0 := by
  rcases hw.kappa.eq_or_lt with hzero | hpos
  · exact hzero.symm
  · exact absurd hpivot (Point.pivot_pos h.saddle h.ratio_pos hw.tau hpos).ne'

/-- **Both passes of a search direction** in the interior, where the pivot is not zero: a predictor,
a step along it, and the corrector. -/
theorem NewtonSystem.Assembled.exists_passes {f : Factorization K} {u : Fin p.n → K}
    {v : Fin p.m → K} (h : Assembled p w f u v) (hw : w.Interior) (hpivot : w.pivot p u v ≠ 0)
    (traps : Traps) (beta : K) :
    ∃ pred alpha d, (exact p w f u v).predictor traps = .ok pred.direction ∧
      stepLength traps w.iterate pred.direction 1 = .ok alpha ∧
      (exact p w f u v).corrector traps pred.direction (centering beta alpha) =
        .ok d.direction ∧
      IsSearchDirection p w beta pred alpha d := by
  obtain ⟨pred, hpred, hpredictor⟩ := h.direction_of_pivot_ne_zero hw.tau.ne' hpivot traps 0
    (-w.x * w.z) (-w.tau * w.kappa)
  obtain ⟨alpha, halpha, hstep⟩ := stepLength_exact traps hw.nonneg pred one_pos
  obtain ⟨d, hd, hcorrector⟩ := h.direction_of_pivot_ne_zero hw.tau.ne' hpivot traps
    (centering beta alpha) (w.correctedProducts pred (centering beta alpha))
    (w.correctedNumber pred (centering beta alpha))
  rw [← predictor_exact] at hpred
  rw [← corrector_exact] at hd
  exact ⟨pred, alpha, d, hpred, halpha, hd, hpredictor, hstep, hcorrector⟩

/-- What is left of a search direction once the system is there. -/
theorem searchDirection_of_assemble {traps : Traps} {factorizer : Factorizer K}
    {it : Iterate K} {s : NewtonSystem K}
    (hs : NewtonSystem.assemble traps factorizer p it = .ok s) (beta : K) :
    searchDirection traps factorizer p it beta = (do
      let predictor ← s.predictor traps
      let alpha ← stepLength traps it predictor 1
      s.corrector traps predictor (centering beta alpha)) := by
  rw [searchDirection, hs]
  simp

/-- **The search direction in the interior**: a predictor, a step along it, and the corrector; or a
division by zero, which needs that the pivot is zero. -/
theorem searchDirection_of_pivot {backend : Backend} {f : Factorization K} {u : Fin p.n → K}
    {v : Fin p.m → K}
    (hs : NewtonSystem.assemble .on (factorize backend) p w.iterate = .ok (.exact p w f u v))
    (h : NewtonSystem.Assembled p w f u v) (hw : w.Interior) (beta : K) :
    (∃ pred alpha d, (NewtonSystem.exact p w f u v).predictor .on = .ok pred.direction ∧
      stepLength .on w.iterate pred.direction 1 = .ok alpha ∧
      searchDirection .on (factorize backend) p w.iterate beta = .ok d.direction ∧
      w.Regular p ∧ IsSearchDirection p w beta pred alpha d) ∨
    (w.pivot p u v = 0 ∧ searchDirection .on (factorize backend) p w.iterate beta =
      .error (.breakdown (.trapped .zeroDivide .divide true))) := by
  rw [searchDirection_of_assemble hs]
  by_cases hpivot : w.pivot p u v = 0
  · refine .inr ⟨hpivot, ?_⟩
    rw [NewtonSystem.predictor_exact, h.direction_of_pivot_eq_zero hw.tau.ne' hpivot, error_bind]
  · obtain ⟨pred, alpha, d, hpred, halpha, hd, hdirection⟩ := h.exists_passes hw hpivot .on beta
    refine .inl ⟨pred, alpha, d, hpred, halpha, ?_, h.regular hw.tau.ne' hpivot, hdirection⟩
    rw [hpred, ok_bind, halpha, ok_bind, hd]

/-- In the interior nothing breaks down unless `kappa` is zero. -/
theorem searchDirection_of_assembled {backend : Backend} {f : Factorization K} {u : Fin p.n → K}
    {v : Fin p.m → K}
    (hs : NewtonSystem.assemble .on (factorize backend) p w.iterate = .ok (.exact p w f u v))
    (h : NewtonSystem.Assembled p w f u v) (hw : w.Interior) (beta : K) :
    (∃ pred alpha d, (NewtonSystem.exact p w f u v).predictor .on = .ok pred.direction ∧
      stepLength .on w.iterate pred.direction 1 = .ok alpha ∧
      searchDirection .on (factorize backend) p w.iterate beta = .ok d.direction ∧
      w.Regular p ∧ IsSearchDirection p w beta pred alpha d) ∨
    (w.kappa = 0 ∧ searchDirection .on (factorize backend) p w.iterate beta =
      .error (.breakdown (.trapped .zeroDivide .divide true))) := by
  rcases searchDirection_of_pivot hs h hw beta with hfound | ⟨hpivot, hd⟩
  · exact .inl hfound
  · exact .inr ⟨h.kappa_eq_zero hw hpivot, hd⟩

/-- **What a search direction can end with** at a point without negative coordinates: one has been
found, and then the point is in the interior and the rows are independent, or there was a
breakdown, which does not happen at positive points with independent rows. -/
theorem searchDirection_cases (backend : Backend) (hw : w.Nonneg) (beta : K) :
    (∃ pred alpha d, searchDirection .on (factorize backend) p w.iterate beta = .ok d.direction ∧
      w.Interior ∧ LinearIndependent K p.matrix.row ∧ IsSearchDirection p w beta pred alpha d) ∨
    (∃ b, searchDirection .on (factorize backend) p w.iterate beta = .error (.breakdown b) ∧
      (w.Positive → ¬LinearIndependent K p.matrix.row)) := by
  rcases NewtonSystem.assemble_cases .on backend p w with ⟨f, u, v, hs, hasm⟩ | ⟨b, hs, hrows⟩
  swap
  · refine .inr ⟨b, by rw [searchDirection, hs, error_bind], fun hpos => ?_⟩
    exact hrows hpos.interior.ratio_pos
  rcases hw.tau.eq_or_lt with htau | htau
  · have hpred := NewtonSystem.direction_of_tau_eq_zero hasm htau.symm 0 (-w.x * w.z)
      (-w.tau * w.kappa)
    refine .inr ⟨.divisionByZero, ?_, fun hpos => absurd htau hpos.tau.ne⟩
    rw [searchDirection, hs, ok_bind, NewtonSystem.predictor_exact, hpred, error_bind]
  -- A positive ratio of numbers that are not negative is one of positive numbers.
  have hinterior : w.Interior := by
    refine ⟨fun i => ?_, fun i => ?_, htau, hw.kappa⟩
    · exact lt_of_le_of_ne (hw.x i) (hasm.x_ne_zero i).symm
    · exact lt_of_le_of_ne (hw.z i) (div_ne_zero_iff.1 (hasm.ratio_pos i).ne').2.symm
  rcases searchDirection_of_assembled hs hasm hinterior beta with
    ⟨pred, alpha, d, -, -, hd, -, hdirection⟩ | ⟨hkappa, hd⟩
  · exact .inl ⟨pred, alpha, d, hd, hinterior, hasm.independent, hdirection⟩
  · exact .inr ⟨_, hd, fun hpos => absurd hkappa hpos.kappa.ne'⟩

end Computed

/-! ### Existence and uniqueness -/

/-- At a regular point a solution of the Newton equations is the only one. -/
theorem IsNewtonStep.iff_eq {p : Problem K} {w d : Point K p.m p.n} {gamma r_tk : K}
    {r_xz : Fin p.n → K} (h : IsNewtonStep p w gamma r_xz r_tk d) (hw : w.Regular p)
    (d' : Point K p.m p.n) : IsNewtonStep p w gamma r_xz r_tk d' ↔ d' = d := by
  constructor
  · intro h'
    exact hw gamma r_xz r_tk d d' h h'
  · rintro rfl
    exact h

/-- **The directions are the solutions of the Newton equations.**  In the interior and for
independent rows the system is assembled.  For every right-hand side the direction that is computed
with it is the one and only solution, unless the computation divides by zero, which needs that
`kappa` is zero; and so is the search direction for the right-hand side of its corrector. -/
theorem direction_solves_newton (p : Problem K) (hrows : LinearIndependent K p.matrix.row)
    (backend : Backend) (w : Point K p.m p.n) (hw : w.Interior) :
    ∃ s, NewtonSystem.assemble .on (factorize backend) p w.iterate = .ok s ∧
      (∀ gamma r_xz r_tk,
        (∃ d, s.direction .on gamma (.ofVector r_xz) r_tk = .ok d.direction ∧
          ∀ d', IsNewtonStep p w gamma r_xz r_tk d' ↔ d' = d) ∨
        (w.kappa = 0 ∧ s.direction .on gamma (.ofVector r_xz) r_tk =
          .error (.breakdown (.trapped .zeroDivide .divide true)))) ∧
      ∀ beta,
        (∃ pred alpha d, s.predictor .on = .ok pred.direction ∧
          (∀ d', IsNewtonStep p w 0 (-w.x * w.z) (-w.tau * w.kappa) d' ↔ d' = pred) ∧
          stepLength .on w.iterate pred.direction 1 = .ok alpha ∧
          searchDirection .on (factorize backend) p w.iterate beta = .ok d.direction ∧
          ∀ d', IsNewtonStep p w (centering beta alpha)
            (w.correctedProducts pred (centering beta alpha))
            (w.correctedNumber pred (centering beta alpha)) d' ↔ d' = d) ∨
        (w.kappa = 0 ∧ searchDirection .on (factorize backend) p w.iterate beta =
          .error (.breakdown (.trapped .zeroDivide .divide true))) := by
  rcases NewtonSystem.assemble_cases .on backend p w with ⟨f, u, v, hs, h⟩ | ⟨b, -, hdependent⟩
  swap
  · exact absurd hrows (hdependent hw.ratio_pos)
  refine ⟨_, hs, fun gamma r_xz r_tk => ?_, fun beta => ?_⟩
  · rcases NewtonSystem.direction_cases h hw.tau.ne' gamma r_xz r_tk with
      ⟨d, hd, hregular, hstep⟩ | ⟨hpivot, hd⟩
    · exact .inl ⟨d, hd, hstep.iff_eq hregular⟩
    · exact .inr ⟨h.kappa_eq_zero hw hpivot, hd⟩
  · rcases searchDirection_of_assembled hs h hw beta with
      ⟨pred, alpha, d, hpred, halpha, hd, hregular, hdirection⟩ | hzero
    · exact .inl ⟨pred, alpha, d, hpred, hdirection.predictor.iff_eq hregular, halpha, hd,
        hdirection.corrector.iff_eq hregular⟩
    · exact .inr hzero

/-- The program that makes `x` least under `x = 1`. -/
def identityProgram : Problem K := .ofMatrix (1 : Matrix (Fin 1) (Fin 1) K) 1 1 Nat.one_pos

theorem independent_identityProgram :
    LinearIndependent K (identityProgram : Problem K).matrix.row := by
  refine Problem.independent_ofMatrix.2 ((independent_rows_iff _).2 fun v hv => ?_)
  rwa [transpose_one, one_mulVec] at hv

/-- At its blind start a program with independent rows has a search direction. -/
theorem direction_solves_newton_identityProgram :
    (Point.blindStart 1 1 : Point ℝ 1 1).Interior ∧
      LinearIndependent ℝ (identityProgram : Problem ℝ).matrix.row ∧
      ∃ d : Point ℝ 1 1, searchDirection .on (factorize .host) (identityProgram : Problem ℝ)
        (Point.blindStart 1 1 : Point ℝ 1 1).iterate (1 / 10) = .ok d.direction := by
  have hw : (Point.blindStart 1 1 : Point ℝ 1 1).Interior :=
    (Point.positive_blindStart 1 1).interior
  obtain ⟨s, -, -, hsearch⟩ := direction_solves_newton (identityProgram : Problem ℝ)
    independent_identityProgram .host (Point.blindStart 1 1) hw
  refine ⟨hw, independent_identityProgram, ?_⟩
  rcases hsearch (1 / 10) with ⟨pred, alpha, d, -, -, -, hd, -⟩ | ⟨hkappa, -⟩
  · exact ⟨d, hd⟩
  · exact absurd hkappa one_ne_zero

end SelfDual
