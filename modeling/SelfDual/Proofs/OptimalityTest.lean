import SelfDual.Optimality
import SelfDual.Proofs.ResidualNorms
/-!
**What the optimality test certifies.**

The test measures five gaps, each by itself, and compares them with a tolerance.  By weak duality
they bound together how far the point is from being optimal: its cost exceeds that of a feasible
point by no more than the tolerance times one more than twice the length of the feasible point, and
its multipliers are as good as any others up to a similar error.  Without a tolerance the test holds
at the optimal pairs and nowhere else.

Main definitions:

* `OptimalUpTo` — the optimality conditions up to a tolerance;
* `OptimalityGaps.Measures` — the gaps of a point.

Main results:

* `reduced_dotProduct` — the reduced costs, paired with a point;
* `OptimalUpTo.cost_le`, `OptimalUpTo.le_target` — **no feasible point is much better**, and no
  multipliers are;
* `optimalUpTo_zero_iff` — the conditions without a tolerance;
* `OptimalityGaps.Measures.within_iff` — **the gaps are within a tolerance** exactly where the
  conditions hold up to it;
* `exists_optimalityGaps` — **the gaps that are computed**;
* `optimalityGaps_certify` — **the test is sound and complete**.
-/

set_option autoImplicit false

open Matrix

namespace SelfDual

variable {K : Type} [ExactField K] {m n : ℕ}

/-! ### Pairings with a bound -/

/-- Entries that are not far below zero, paired with weights. -/
theorem neg_mul_sum_le_dotProduct {u v : Fin n → K} {t : K} (hu : ∀ i, -t ≤ u i)
    (hv : ∀ i, 0 ≤ v i) : -(t * ∑ i, v i) ≤ u ⬝ᵥ v := by
  calc -(t * ∑ i, v i) = ∑ i, -t * v i := by rw [← neg_mul, Finset.mul_sum]
    _ ≤ u ⬝ᵥ v := Finset.sum_le_sum fun i _ => mul_le_mul_of_nonneg_right (hu i) (hv i)

/-- **The reduced costs, paired with a point**, are what its cost exceeds the multipliers of its
constraints by. -/
theorem reduced_dotProduct (A : Matrix (Fin m) (Fin n) K) (c x : Fin n → K) (y : Fin m → K) :
    (c - Aᵀ *ᵥ y) ⬝ᵥ x = c ⬝ᵥ x - (A *ᵥ x) ⬝ᵥ y := by
  have hadjoint : x ⬝ᵥ (Aᵀ *ᵥ y) = y ⬝ᵥ (A *ᵥ x) := dotProduct_transpose_mulVec A x y
  rw [sub_dotProduct, dotProduct_comm (Aᵀ *ᵥ y) x, hadjoint, dotProduct_comm y]

/-! ### The conditions up to a tolerance -/

/-- **The optimality conditions up to a tolerance.** -/
structure OptimalUpTo (A : Matrix (Fin m) (Fin n) K) (c : Fin n → K) (b : Fin m → K)
    (x : Fin n → K) (y : Fin m → K) (z : Fin n → K) (tol : K) : Prop where
  primal : ∀ j, |(A *ᵥ x - b) j| ≤ tol
  dual : ∀ i, |(c - Aᵀ *ᵥ y - z) i| ≤ tol
  neg_le_x : ∀ i, -tol ≤ x i
  neg_le_z : ∀ i, -tol ≤ z i
  complementary : ∀ i, |x i * z i| ≤ tol
  gap : |c ⬝ᵥ x - b ⬝ᵥ y| ≤ tol

section Conditions

variable {A : Matrix (Fin m) (Fin n) K} {c x z : Fin n → K} {b y : Fin m → K} {tol : K}

namespace OptimalUpTo

/-- The reduced costs of the multipliers are not far below zero. -/
theorem neg_two_mul_le_reduced (h : OptimalUpTo A c b x y z tol) (i : Fin n) :
    -(2 * tol) ≤ (c - Aᵀ *ᵥ y) i := by
  have hdual : -tol ≤ (c - Aᵀ *ᵥ y) i - z i := (abs_le.1 (h.dual i)).1
  have hz : -tol ≤ z i := h.neg_le_z i
  linarith

/-- **No feasible point costs much less.** -/
theorem cost_le (h : OptimalUpTo A c b x y z tol) {x' : Fin n → K} (hconstraints : A *ᵥ x' = b)
    (hnonneg : ∀ i, 0 ≤ x' i) : c ⬝ᵥ x ≤ c ⬝ᵥ x' + tol * (1 + 2 * ∑ i, x' i) := by
  have hpair : -(2 * tol * ∑ i, x' i) ≤ (c - Aᵀ *ᵥ y) ⬝ᵥ x' :=
    neg_mul_sum_le_dotProduct h.neg_two_mul_le_reduced hnonneg
  rw [reduced_dotProduct, hconstraints] at hpair
  have hgap : c ⬝ᵥ x - b ⬝ᵥ y ≤ tol := (abs_le.1 h.gap).2
  linarith

/-- **No multipliers without negative reduced costs are much better.** -/
theorem le_target (h : OptimalUpTo A c b x y z tol) {y' : Fin m → K}
    (hreduced : ∀ i, 0 ≤ (c - Aᵀ *ᵥ y') i) :
    b ⬝ᵥ y' - tol * (1 + ∑ i, (c - Aᵀ *ᵥ y') i + ∑ j, |y' j|) ≤ b ⬝ᵥ y := by
  have hpair : -(tol * ∑ i, (c - Aᵀ *ᵥ y') i) ≤ x ⬝ᵥ (c - Aᵀ *ᵥ y') :=
    neg_mul_sum_le_dotProduct h.neg_le_x hreduced
  have hresidual : -(tol * ∑ j, |y' j|) ≤ (A *ᵥ x - b) ⬝ᵥ y' :=
    (abs_le.1 (abs_dotProduct_le h.primal)).1
  rw [dotProduct_comm x, reduced_dotProduct] at hpair
  rw [sub_dotProduct] at hresidual
  have hgap : c ⬝ᵥ x - b ⬝ᵥ y ≤ tol := (abs_le.1 h.gap).2
  linarith

end OptimalUpTo

/-- **The conditions without a tolerance.**  That the products vanish one by one follows from the
signs and from the objectives: their sum is the difference of these. -/
theorem optimalUpTo_zero_iff :
    OptimalUpTo A c b x y z 0 ↔
      A *ᵥ x = b ∧ (∀ i, 0 ≤ x i) ∧ Aᵀ *ᵥ y + z = c ∧ (∀ i, 0 ≤ z i) ∧ c ⬝ᵥ x = b ⬝ᵥ y := by
  constructor
  · intro h
    have hprimal : A *ᵥ x - b = 0 := funext fun j => abs_nonpos_iff.1 (h.primal j)
    have hdual : c - Aᵀ *ᵥ y - z = 0 := funext fun i => abs_nonpos_iff.1 (h.dual i)
    refine ⟨sub_eq_zero.1 hprimal, fun i => ?_, ?_, fun i => ?_, ?_⟩
    · exact neg_zero.symm.trans_le (h.neg_le_x i)
    · rw [sub_sub, sub_eq_zero] at hdual
      exact hdual.symm
    · exact neg_zero.symm.trans_le (h.neg_le_z i)
    · exact sub_eq_zero.1 (abs_nonpos_iff.1 h.gap)
  · rintro ⟨hprimal, hx, hdual, hz, hgap⟩
    have hreduced : c - Aᵀ *ᵥ y = z := by
      rw [← hdual, add_sub_cancel_left]
    have hsum : ∑ i, x i * z i = 0 := by
      have hpair : (c - Aᵀ *ᵥ y) ⬝ᵥ x = c ⬝ᵥ x - (A *ᵥ x) ⬝ᵥ y := reduced_dotProduct A c x y
      rw [hreduced, hprimal, hgap, sub_self, dotProduct_comm] at hpair
      exact hpair
    have hterm : ∀ i, x i * z i = 0 := by
      intro i
      have hnonneg : ∀ i ∈ Finset.univ, 0 ≤ x i * z i := fun i _ => mul_nonneg (hx i) (hz i)
      exact (Finset.sum_eq_zero_iff_of_nonneg hnonneg).1 hsum i (Finset.mem_univ i)
    exact {
      primal := fun j => by rw [hprimal, sub_self, Pi.zero_apply, abs_zero]
      dual := fun i => by rw [hreduced, sub_self, Pi.zero_apply, abs_zero]
      neg_le_x := fun i => by rw [neg_zero]; exact hx i
      neg_le_z := fun i => by rw [neg_zero]; exact hz i
      complementary := fun i => by rw [hterm i, abs_zero]
      gap := by rw [hgap, sub_self, abs_zero] }

end Conditions

/-! ### The gaps that are computed -/

/-- How far a number lies below zero. -/
theorem abs_min_zero_le_iff {a t : K} (ht : 0 ≤ t) : |min a 0| ≤ t ↔ -t ≤ a := by
  rw [abs_of_nonpos (min_le_right a 0), neg_le, le_min_iff]
  exact and_iff_left (neg_nonpos.2 ht)

/-- What is negative in two vectors, one after the other. -/
theorem negativeParts_vectors (x z : Fin n → K) :
    Tensor.ofList (((Tensor.ofVector x).toList ++ (Tensor.ofVector z).toList).map negativePart) =
      .ofVector (Fin.append (fun i => min (x i) 0) fun i => min (z i) 0) := by
  have hpart : ∀ v : Fin n → K,
      (List.ofFn v).map negativePart = List.ofFn fun i => min (v i) 0 := by
    intro v
    rw [List.map_ofFn]
    refine congrArg List.ofFn (funext fun i => ?_)
    simp [negativePart, Tensor.keepNaN]
  rw [Tensor.toList_ofVector, Tensor.toList_ofVector, List.map_append, hpart, hpart,
    ← List.ofFn_fin_append, Tensor.ofList_ofFn]

/-- The gaps of a point: each is the greatest absolute value of what a condition asks to vanish. -/
structure OptimalityGaps.Measures (g : OptimalityGaps K) (A : Matrix (Fin m) (Fin n) K)
    (c : Fin n → K) (b : Fin m → K) (x : Fin n → K) (y : Fin m → K) (z : Fin n → K) : Prop where
  primal : IsMaxNorm (A *ᵥ x - b) g.primal
  dual : IsMaxNorm (c - Aᵀ *ᵥ y - z) g.dual
  nonnegativity :
    IsMaxNorm (Fin.append (fun i => min (x i) 0) fun i => min (z i) 0) g.nonnegativity
  complementary : IsMaxNorm (x * z) g.complementary
  gap : g.gap = |c ⬝ᵥ x - b ⬝ᵥ y|

namespace OptimalityGaps.Measures

variable {g : OptimalityGaps K} {A : Matrix (Fin m) (Fin n) K} {c x z : Fin n → K}
  {b y : Fin m → K}

/-- A bound on the negative parts. -/
theorem nonnegativity_le_iff (h : g.Measures A c b x y z) {tol : K} (htol : 0 ≤ tol) :
    g.nonnegativity ≤ tol ↔ (∀ i, -tol ≤ x i) ∧ ∀ i, -tol ≤ z i := by
  rw [h.nonnegativity.le_iff htol, Fin.forall_fin_add]
  simp only [Fin.append_left, Fin.append_right, abs_min_zero_le_iff htol]

/-- **The gaps are within a tolerance** exactly where the conditions hold up to it. -/
theorem within_iff (h : g.Measures A c b x y z) {tol : K} (htol : 0 ≤ tol) :
    g.within tol = true ↔ OptimalUpTo A c b x y z tol := by
  have hparts : g.primal ≤ tol ∧ g.dual ≤ tol ∧ g.nonnegativity ≤ tol ∧ g.complementary ≤ tol ∧
      g.gap ≤ tol ↔ OptimalUpTo A c b x y z tol := by
    rw [h.primal.le_iff htol, h.dual.le_iff htol, h.nonnegativity_le_iff htol,
      h.complementary.le_iff htol, h.gap]
    constructor
    · rintro ⟨hprimal, hdual, ⟨hx, hz⟩, hproducts, hgap⟩
      exact ⟨hprimal, hdual, hx, hz, hproducts, hgap⟩
    · rintro ⟨hprimal, hdual, hx, hz, hproducts, hgap⟩
      exact ⟨hprimal, hdual, ⟨hx, hz⟩, hproducts, hgap⟩
  rw [← hparts]
  exact decide_eq_true_iff

/-- Without negative entries the gap of the signs vanishes. -/
theorem nonnegativity_eq_zero (h : g.Measures A c b x y z) (hx : ∀ i, 0 ≤ x i)
    (hz : ∀ i, 0 ≤ z i) (hn : 0 < n) : g.nonnegativity = 0 := by
  have hle : g.nonnegativity ≤ 0 := by
    rw [h.nonnegativity_le_iff le_rfl, neg_zero]
    exact ⟨hx, hz⟩
  have hge : 0 ≤ g.nonnegativity :=
    (abs_nonneg _).trans (h.nonnegativity.bound (Fin.castAdd n ⟨0, hn⟩))
  exact le_antisymm hle hge

end OptimalityGaps.Measures

/-- **The gaps that are computed.** -/
theorem exists_optimalityGaps (A : Matrix (Fin m) (Fin n) K) (c x z : Fin n → K) (b y : Fin m → K)
    (hn : 0 < n) :
    ∃ g, optimalityGaps (.ofVector c) (.ofMatrix A) (.ofVector b) (.ofVector x) (.ofVector y)
        (.ofVector z) = .ok g ∧ g.Measures A c b x y z := by
  obtain ⟨primal, hprimal, hprimal_max⟩ := exists_isMaxNorm_orZero (A *ᵥ x - b)
  obtain ⟨dual, hdual, hdual_max⟩ := Tensor.exists_isMaxNorm (c - Aᵀ *ᵥ y - z) hn
  obtain ⟨negative, hnegative, hnegative_max⟩ :=
    Tensor.exists_isMaxNorm (Fin.append (fun i => min (x i) 0) fun i => min (z i) 0)
      (Nat.add_pos_left hn n)
  obtain ⟨product, hproduct, hproduct_max⟩ := Tensor.exists_isMaxNorm (x * z) hn
  have hmaximum : (Tensor.ofVector (x * z)).abs.maximum = .ok product := hproduct
  have hdifference : Traps.off.combine .subtract (c ⬝ᵥ x) (b ⬝ᵥ y) = .ok (c ⬝ᵥ x - b ⬝ᵥ y) :=
    Traps.combine_of_defined _ _ (Operation.defined_of_ne (by decide) _)
  refine ⟨⟨primal, dual, negative, product, |c ⬝ᵥ x - b ⬝ᵥ y|⟩, ?_,
    ⟨hprimal_max, hdual_max, hnegative_max, hproduct_max, rfl⟩⟩
  -- The negative parts of `x` and `z` stay one list.
  simp [-List.map_append, optimalityGaps, primalResidual, dualResidual, negativeParts_vectors,
    hprimal, hdual, hnegative, hmaximum, hdifference, pure, Except.pure]

/-! ### Soundness and completeness -/

/-- **The optimality test is sound and complete.**  The gaps of tensors of matching sizes are
always computed.  Where they are within a tolerance, no feasible point costs much less than `x`, and
no multipliers without negative reduced costs are much better than `y`.  They are within zero
exactly if `x` and `z` have no negative entry, satisfy the constraints and the dual constraints, and
the objectives agree; then `x` and `y` are optimal. -/
theorem optimalityGaps_certify {c A b x y z : Tensor K} (hn : 0 < n) (hc : c.size = n)
    (hA : A.shape = [m, n]) (hb : b.size = m) (hx : x.size = n) (hy : y.size = m)
    (hz : z.size = n) :
    ∃ g, optimalityGaps c A b x y z = .ok g ∧
      (∀ tol, 0 ≤ tol → g.within tol = true →
        (∀ x', A.toMatrix m n *ᵥ x' = b.toVector m → (∀ i, 0 ≤ x' i) →
          c.toVector n ⬝ᵥ x.toVector n ≤ c.toVector n ⬝ᵥ x' + tol * (1 + 2 * ∑ i, x' i)) ∧
        ∀ y' z', z' = c.toVector n - (A.toMatrix m n)ᵀ *ᵥ y' → (∀ i, 0 ≤ z' i) →
          b.toVector m ⬝ᵥ y' - tol * (1 + ∑ i, z' i + ∑ j, |y' j|) ≤
            b.toVector m ⬝ᵥ y.toVector m) ∧
      (g.within 0 = true ↔
        A.toMatrix m n *ᵥ x.toVector n = b.toVector m ∧ (∀ i, 0 ≤ x.toVector n i) ∧
          (A.toMatrix m n)ᵀ *ᵥ y.toVector m + z.toVector n = c.toVector n ∧
          (∀ i, 0 ≤ z.toVector n i) ∧
          c.toVector n ⬝ᵥ x.toVector n = b.toVector m ⬝ᵥ y.toVector m) ∧
      (g.within 0 = true →
        (∀ x', A.toMatrix m n *ᵥ x' = b.toVector m → (∀ i, 0 ≤ x' i) →
          c.toVector n ⬝ᵥ x.toVector n ≤ c.toVector n ⬝ᵥ x') ∧
        ∀ y', (∀ i, 0 ≤ (c.toVector n - (A.toMatrix m n)ᵀ *ᵥ y') i) →
          b.toVector m ⬝ᵥ y' ≤ b.toVector m ⬝ᵥ y.toVector m) := by
  obtain ⟨g, hg, hmeasures⟩ := exists_optimalityGaps (A.toMatrix m n) (c.toVector n) (x.toVector n)
    (z.toVector n) (b.toVector m) (y.toVector m) hn
  have hcomputed : optimalityGaps c A b x y z = .ok g := by
    rw [← hg, Tensor.ofMatrix_toMatrix hA]
    simp only [optimalityGaps, Tensor.flatten_of_size hc, Tensor.flatten_of_size hb,
      Tensor.flatten_of_size hx, Tensor.flatten_of_size hy, Tensor.flatten_of_size hz,
      Tensor.flatten_ofVector]
  refine ⟨g, hcomputed, fun tol htol hg => ⟨?_, ?_⟩, ?_, fun hg => ⟨?_, ?_⟩⟩
  · intro x' hconstraints hnonneg
    exact ((hmeasures.within_iff htol).1 hg).cost_le hconstraints hnonneg
  · rintro y' z' rfl hreduced
    exact ((hmeasures.within_iff htol).1 hg).le_target hreduced
  · rw [hmeasures.within_iff le_rfl]
    exact optimalUpTo_zero_iff
  · intro x' hconstraints hnonneg
    have hcost := ((hmeasures.within_iff le_rfl).1 hg).cost_le hconstraints hnonneg
    rwa [zero_mul, add_zero] at hcost
  · intro y' hreduced
    have htarget := ((hmeasures.within_iff le_rfl).1 hg).le_target hreduced
    rwa [zero_mul, sub_zero] at htarget

/-- Two variables that add up to one, the second at twice the cost of the first, with the point
given as a row: it passes the test, so nothing costs less than the first variable alone. -/
theorem optimalityGaps_certify_sum :
    ∃ g : OptimalityGaps ℝ,
      optimalityGaps (.ofVector ![1, 2]) (.ofMatrix !![1, 1]) (.ofVector ![1]) (.ofMatrix !![1, 0])
        (.ofVector ![1]) (.ofVector ![0, 1]) = .ok g ∧
      g.within 0 = true ∧
      ∀ x' : Fin 2 → ℝ, x' 0 + x' 1 = 1 → 0 ≤ x' 0 → 0 ≤ x' 1 → 1 ≤ x' 0 + 2 * x' 1 := by
  obtain ⟨g, hg, -, hiff, hoptimal⟩ := optimalityGaps_certify (K := ℝ) (m := 1) (n := 2)
    (c := .ofVector ![1, 2]) (A := .ofMatrix !![1, 1]) (b := .ofVector ![1])
    (x := .ofMatrix !![1, 0]) (y := .ofVector ![1]) (z := .ofVector ![0, 1]) Nat.two_pos rfl rfl rfl
    rfl rfl rfl
  have hrow : Tensor.toVector 2 (.ofMatrix !![(1 : ℝ), 0]) = ![1, 0] := by
    funext i
    simpa [Tensor.toVector] using Tensor.entry_ofMatrix !![(1 : ℝ), 0] 0 i
  simp only [Tensor.toVector_ofVector, Tensor.toMatrix_ofMatrix, hrow] at hiff hoptimal
  have hwithin : g.within 0 = true := by
    rw [hiff]
    refine ⟨?_, ?_, ?_, ?_, ?_⟩
    · funext j
      fin_cases j
      simp
    · intro i
      fin_cases i <;> simp
    · funext i
      fin_cases i <;> norm_num [vecHead, vecTail, mulVec, dotProduct]
    · intro i
      fin_cases i <;> simp
    · simp
  refine ⟨g, hg, hwithin, fun x' hsum hfirst hsecond => ?_⟩
  have hconstraints : !![(1 : ℝ), 1] *ᵥ x' = ![1] := by
    funext j
    fin_cases j
    simpa [mulVec, dotProduct, Fin.sum_univ_two] using hsum
  have hnonneg : ∀ i, 0 ≤ x' i := by
    intro i
    fin_cases i
    · exact hfirst
    · exact hsecond
  have hcost := (hoptimal hwithin).1 x' hconstraints hnonneg
  simpa [dotProduct, Fin.sum_univ_two] using hcost

end SelfDual
