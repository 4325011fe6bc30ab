import SelfDual.Proofs.NearOptimal
/-!
**The constraints at the solution that is returned.**

A solve that ends with a solution has tested the primal residual of its last point, divided by that
of the blind start.  What it returns has been divided by `tau` after that, and small entries of `x`
have been set to zero.  So the constraints are missed by what has been tested over `tau`, and by
what the entries that were set to zero had contributed; how large the right-hand side is does not
enter.

Main definitions:

* `snapped` — a vector with small entries set to zero;
* `Problem.zeroWeight` — for each constraint, the coefficients of the variables that are zero.

Main results:

* `ExactField.norm_add_le`, `ExactField.norm_le_norm` — the norm is subadditive and monotone;
* `Problem.mulVec_snapped` — **what setting small entries to zero changes in the constraints**;
* `NearOptimal.norm_snapped_le` — the constraints at a nearly optimal solution, small entries set to
  zero;
* `optimal_meets_constraints` — **a solve that ends with a solution** meets the signs, and the
  constraints up to these two errors.
-/

set_option autoImplicit false

open Matrix

namespace SelfDual

variable {K : Type} [ExactField K]

/-! ### Norms -/

namespace ExactField

variable {n : ℕ}

/-- The triangle inequality. -/
theorem norm_add_le (u v : Fin n → K) : norm (u + v) ≤ norm u + norm v := by
  refine le_of_sq_le_sq ?_ (add_nonneg (norm_nonneg u) (norm_nonneg v))
  have hcross : u ⬝ᵥ v ≤ norm u * norm v := dotProduct_le_norm u v
  calc norm (u + v) ^ 2 = u ⬝ᵥ u + 2 * (u ⬝ᵥ v) + v ⬝ᵥ v := by
        rw [pow_two, norm_mul_self, add_dotProduct, dotProduct_add, dotProduct_add,
          dotProduct_comm v u]
        ring
    _ ≤ norm u * norm u + 2 * (norm u * norm v) + norm v * norm v := by
        rw [norm_mul_self, norm_mul_self]
        linarith
    _ = (norm u + norm v) ^ 2 := by ring

/-- Greater entries make a greater norm. -/
theorem norm_le_norm {u v : Fin n → K} (h : ∀ i, |u i| ≤ v i) : norm u ≤ norm v := by
  refine le_of_sq_le_sq ?_ (norm_nonneg v)
  rw [pow_two, pow_two, norm_mul_self, norm_mul_self]
  refine Finset.sum_le_sum fun i _ => ?_
  calc u i * u i = |u i| * |u i| := (abs_mul_abs_self (u i)).symm
    _ ≤ v i * v i := mul_self_le_mul_self (abs_nonneg _) (h i)

end ExactField

/-! ### Small entries -/

section Snapped

variable {n : ℕ} (tol : K) (x : Fin n → K)

/-- The vector with the entries below the tolerance set to zero. -/
def snapped : Fin n → K := fun i => if x i < tol then 0 else x i

theorem snap_vector : snap tol (.ofVector x) = .ofVector (snapped tol x) :=
  Tensor.map_ofVector _ x

variable {tol}

/-- An entry is zero or at least as great as the tolerance. -/
theorem snapped_eq_zero_or_le (i : Fin n) : snapped tol x i = 0 ∨ tol ≤ snapped tol x i := by
  rw [snapped]
  split
  · exact .inl rfl
  · next hlt => exact .inr (not_lt.1 hlt)

theorem snapped_nonneg (htol : 0 ≤ tol) (i : Fin n) : 0 ≤ snapped tol x i := by
  rcases snapped_eq_zero_or_le x i with hzero | hle
  · exact hzero.ge
  · exact htol.trans hle

variable {x}

/-- What has been taken away is below the tolerance where the entry is zero now, and nothing
elsewhere. -/
theorem abs_sub_snapped_le (hx : ∀ i, 0 ≤ x i) (htol : 0 < tol) (i : Fin n) :
    |x i - snapped tol x i| ≤ if snapped tol x i = 0 then tol else 0 := by
  by_cases hlt : x i < tol
  · have hzero : snapped tol x i = 0 := if_pos hlt
    rw [hzero, if_pos rfl, sub_zero, abs_of_nonneg (hx i)]
    exact hlt.le
  · have hsame : snapped tol x i = x i := if_neg hlt
    have hpos : 0 < x i := htol.trans_le (not_lt.1 hlt)
    rw [hsame, if_neg hpos.ne', sub_self, abs_zero]

end Snapped

namespace Problem

/-- For each constraint, the absolute values of the coefficients of the variables that are zero,
added up. -/
def zeroWeight (p : Problem K) (x : Fin p.n → K) : Fin p.m → K :=
  fun j => ∑ i, if x i = 0 then |p.matrix j i| else 0

variable {p : Problem K} {x : Fin p.n → K} {tol : K}

/-- **What setting small entries to zero changes in the constraints.** -/
theorem mulVec_snapped (p : Problem K) (tol : K) (x : Fin p.n → K) :
    p.matrix *ᵥ snapped tol x - p.target =
      (p.matrix *ᵥ x - p.target) + -(p.matrix *ᵥ (x - snapped tol x)) := by
  rw [mulVec_sub]
  abel

/-- A constraint changes by the tolerance times the coefficients of the zeros, at most. -/
theorem abs_mulVec_sub_snapped_le (hx : ∀ i, 0 ≤ x i) (htol : 0 < tol) (j : Fin p.m) :
    |(p.matrix *ᵥ (x - snapped tol x)) j| ≤ (tol • p.zeroWeight (snapped tol x)) j := by
  have hterm : ∀ i, |p.matrix j i * (x i - snapped tol x i)| ≤
      tol * if snapped tol x i = 0 then |p.matrix j i| else 0 := by
    intro i
    have hentry := mul_le_mul_of_nonneg_left (abs_sub_snapped_le hx htol i)
      (abs_nonneg (p.matrix j i))
    rw [abs_mul]
    refine hentry.trans_eq ?_
    split
    · exact mul_comm _ _
    · rw [mul_zero, mul_zero]
  have hsum : (p.matrix *ᵥ (x - snapped tol x)) j =
      ∑ i, p.matrix j i * (x i - snapped tol x i) := rfl
  rw [hsum]
  calc |∑ i, p.matrix j i * (x i - snapped tol x i)|
      ≤ ∑ i, |p.matrix j i * (x i - snapped tol x i)| := Finset.abs_sum_le_sum_abs _ _
    _ ≤ ∑ i, tol * (if snapped tol x i = 0 then |p.matrix j i| else 0) :=
        Finset.sum_le_sum fun i _ => hterm i
    _ = (tol • p.zeroWeight (snapped tol x)) j := (Finset.mul_sum _ _ _).symm

end Problem

/-! ### Nearly optimal solutions -/

/-- **The constraints at a nearly optimal solution, small entries set to zero**: they are missed by
what has been tested over `tau`, and by the tolerance times the coefficients of the zeros. -/
theorem NearOptimal.norm_snapped_le {p : Problem K} {tol tau objective : K} {x z : Fin p.n → K}
    {y : Fin p.m → K} (h : NearOptimal p tol tau x y z objective) (htol : 0 < tol) :
    ExactField.norm (p.matrix *ᵥ snapped tol x - p.target) ≤
      tol * (max 1 (ExactField.norm (p.target - p.matrix *ᵥ 1)) / tau +
        ExactField.norm (p.zeroWeight (snapped tol x))) := by
  have hchange : ExactField.norm (p.matrix *ᵥ (x - snapped tol x)) ≤
      tol * ExactField.norm (p.zeroWeight (snapped tol x)) :=
    (ExactField.norm_le_norm (Problem.abs_mulVec_sub_snapped_le h.x_nonneg htol)).trans_eq
      (ExactField.norm_smul htol.le _)
  rw [p.mulVec_snapped]
  refine (ExactField.norm_add_le _ _).trans ?_
  rw [ExactField.norm_neg, mul_add, ← mul_div_assoc]
  exact add_le_add h.primal hchange

/-! ### Solves that end with a solution -/

/-- **A solve that ends with a solution meets the constraints up to two errors.**  With `tau` that
of the last point, what is returned for `x` has no negative entry and none between zero and the
tolerance, and it misses the constraints by no more than the tolerance times what the indicator is
divided by over `tau`, and the tolerance times the coefficients of the zeros.  Where these two
factors together do not exceed one more than the length of the right-hand side, that is a bound
relative to the right-hand side. -/
theorem optimal_meets_constraints (p : Problem K) (o : Options K) (callback : Option (Callback K))
    (clock : ℕ → K) (r : Result K) (hr : (solve p o callback clock).result = .ok r)
    (hstatus : r.status = .optimal) :
    ∃ (w : Point K p.m p.n) (x : Fin p.n → K),
      (solve p o callback clock).advances.getLast?.map (·.point) = some w.iterate ∧
      0 < w.tau ∧ r.x = .ofVector x ∧
      (∀ i, x i = 0 ∨ o.tol ≤ x i) ∧ (∀ i, -o.tol ≤ x i) ∧
      ExactField.norm (p.matrix *ᵥ x - p.target) ≤
        o.tol * (max 1 (ExactField.norm (p.target - p.matrix *ᵥ 1)) / w.tau +
          ExactField.norm (p.zeroWeight x)) ∧
      (max 1 (ExactField.norm (p.target - p.matrix *ᵥ 1)) / w.tau +
          ExactField.norm (p.zeroWeight x) ≤ 1 + ExactField.norm p.target →
        ExactField.norm (p.matrix *ᵥ x - p.target) ≤ o.tol * (1 + ExactField.norm p.target)) := by
  obtain ⟨w, hw⟩ := exists_decidedAt hr (by rw [hstatus]; decide) (by rw [hstatus]; decide)
  have hnear := hw.onPath.nearOptimal (hw.isSolved hstatus)
  have hbound := hnear.norm_snapped_le o.tol_pos
  refine ⟨w, snapped o.tol (w.tau⁻¹ • w.x), hw.last_point, hw.onPath.tau_pos,
    hw.x.trans (snap_vector _ _), snapped_eq_zero_or_le _, fun i => ?_, hbound, fun hfactors => ?_⟩
  · exact (neg_nonpos.2 o.tol_pos.le).trans (snapped_nonneg _ o.tol_pos.le i)
  · exact hbound.trans (mul_le_mul_of_nonneg_left hfactors o.tol_pos.le)

/-- The identity is solved up to these errors. -/
theorem optimal_meets_constraints_identityProgram :
    ∃ r, (solve (identityProgram : Problem ℝ) longStep none fun _ => 0).result = .ok r ∧
      r.status = .optimal ∧ ∃ (w : Point ℝ 1 1) (x : Fin 1 → ℝ), 0 < w.tau ∧ r.x = .ofVector x ∧
        (∀ i, -(1 / 100) ≤ x i) ∧
        ExactField.norm ((identityProgram : Problem ℝ).matrix *ᵥ x -
            (identityProgram : Problem ℝ).target) ≤
          1 / 100 * (max 1 (ExactField.norm ((identityProgram : Problem ℝ).target -
              (identityProgram : Problem ℝ).matrix *ᵥ 1)) / w.tau +
            ExactField.norm ((identityProgram : Problem ℝ).zeroWeight x)) := by
  obtain ⟨r, hr, hstatus, -⟩ := decidedAt_identityProgram
  obtain ⟨w, x, -, htau, hx, -, hsigns, hbound, -⟩ :=
    optimal_meets_constraints identityProgram longStep none (fun _ => 0) r hr hstatus
  exact ⟨r, hr, hstatus, w, x, htau, hx, hsigns, hbound⟩

/-! ### A bound relative to the right-hand side -/

/-- The cost of the second variable can make up for the ray: after one iteration the gap has
vanished, and the solve ends with a solution. -/
theorem decidedAt_rayProgram_solved :
    ∃ r, (solve (rayProgram (1000 : ℝ)) longStep none fun _ => 0).result = .ok r ∧
      r.status = .optimal ∧ DecidedAt (rayProgram (1000 : ℝ)) longStep none (fun _ => 0) r
        ((Point.blindStart 1 2).move rayDirection (999 / 1000)) := by
  have hstart := straightStart_rayProgram (1000 : ℝ)
  have hrows := independent_rayProgram (1000 : ℝ)
  obtain ⟨hP, hD, -⟩ := hstart.infeasibilities_lt hrows longStep_lt_one longStep_rest_lt
  have hA : (firstAdvance (rayProgram (1000 : ℝ)) longStep rayDirection).indicators.rhoA ≤
      (longStep : Options ℝ).tol := by
    refine (rhoA_firstAdvance_ofMatrix Nat.two_pos longStep).trans_le ?_
    norm_num [longStep_alpha0, longStep_tol, rayDirection, vecHead, vecTail]
  exact hstart.exists_decidedAt hrows longStep_lt_one (fun _ => 0)
    (.solved (Indicators.isSolved_iff.2 ⟨hP.le, hD.le, hA⟩)) (by decide) (by decide)

/-- Its solution, small entries set to zero. -/
theorem snapped_rayDirection :
    snapped (1 / 100 : ℝ) (((Point.blindStart 1 2).move rayDirection (999 / 1000 : ℝ)).tau⁻¹ •
      ((Point.blindStart 1 2).move rayDirection (999 / 1000 : ℝ)).x) = ![1000, 1] := by
  rw [move_rayDirection]
  funext i
  fin_cases i <;> norm_num [snapped]

/-- The constraint of the program with a ray asks the second variable to be zero. -/
theorem constraint_rayProgram (cost : K) (x : Fin 2 → K) :
    (rayProgram cost).matrix *ᵥ x - (rayProgram cost).target = fun _ => x 1 := by
  have hmatrix : (rayProgram cost).matrix = !![0, 1] := Problem.matrix_ofMatrix _ _ _ _
  have htarget : (rayProgram cost).target = 0 := Problem.target_ofMatrix _ _ _ _
  have hproduct : !![0, 1] *ᵥ x = fun _ => x 1 := by
    funext j
    simp [mulVec, dotProduct, Fin.fin_one_eq_zero j]
  rw [hmatrix, htarget, sub_zero]
  exact hproduct

/-- A solve can end with a solution that misses the constraints by a hundred times the tolerance
though their right-hand side is zero: `tau` has fallen to a thousandth. -/
theorem optimal_misses_target_rayProgram :
    ∃ r, (solve (rayProgram (1000 : ℝ)) longStep none fun _ => 0).result = .ok r ∧
      r.status = .optimal ∧ ∃ x : Fin 2 → ℝ, r.x = .ofVector x ∧
        ¬ExactField.norm ((rayProgram (1000 : ℝ)).matrix *ᵥ x - (rayProgram (1000 : ℝ)).target) ≤
          (longStep : Options ℝ).tol * (1 + ExactField.norm (rayProgram (1000 : ℝ)).target) := by
  obtain ⟨r, hr, hstatus, hdecided⟩ := decidedAt_rayProgram_solved
  have hx : r.x = .ofVector ![1000, 1] :=
    hdecided.x.trans ((snap_vector _ _).trans (congrArg Tensor.ofVector snapped_rayDirection))
  have htarget : (rayProgram (1000 : ℝ)).target = 0 := Problem.target_ofMatrix _ _ _ _
  have hzero : ExactField.norm (rayProgram (1000 : ℝ)).target = 0 := by
    rw [htarget, ← zero_smul ℝ (0 : Fin (rayProgram (1000 : ℝ)).m → ℝ),
      ExactField.norm_smul le_rfl, zero_mul]
  refine ⟨r, hr, hstatus, ![1000, 1], hx, fun hle => ?_⟩
  rw [hzero, longStep_tol] at hle
  -- The constraint is missed by one.
  have hmissed : ExactField.norm (fun _ : Fin 1 => (1 : ℝ)) ≤ 1 / 100 * (1 + 0) :=
    (congrArg ExactField.norm (constraint_rayProgram 1000 ![1000, 1])).symm.trans_le hle
  have hsquare := ExactField.norm_mul_self (fun _ : Fin 1 => (1 : ℝ))
  simp only [dotProduct, mul_one, Finset.univ_unique, Finset.sum_const, Finset.card_singleton,
    one_smul] at hsquare
  nlinarith [ExactField.norm_nonneg (fun _ : Fin 1 => (1 : ℝ))]

end SelfDual
