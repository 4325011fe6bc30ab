import SelfDual.Proofs.ConstraintResidual
/-!
**The norms that a result reports.**

A result says how far its solution is from satisfying the constraints: it has the greatest absolute
values of `A x - b`, with small entries of `x` set to zero, and of `c - Aᵀ y - z`.

Main definitions:

* `IsMaxNorm`, `ExactField.maxNorm` — the greatest absolute value of a vector, zero for an empty
  one.

Main results:

* `IsMaxNorm.unique`, `IsMaxNorm.comp` — it is determined by the entries, in any order;
* `IsMaxNorm.le_iff` — it is within a bound if every entry is;
* `Tensor.exists_isMaxNorm`, `exists_isMaxNorm_orZero` — this is the norm that is computed;
* `Progress.exists_result_isMaxNorm` — **the result** at a point, with its norms.
-/

set_option autoImplicit false

open Matrix

namespace SelfDual

variable {K : Type} [ExactField K] {n n' : ℕ}

/-! ### Greatest absolute values -/

/-- `a` is the greatest absolute value of a vector, zero for an empty one. -/
structure IsMaxNorm (v : Fin n → K) (a : K) : Prop where
  bound : ∀ i, |v i| ≤ a
  attained : (∃ i, |v i| = a) ∨ n = 0 ∧ a = 0

namespace IsMaxNorm

variable {v : Fin n → K} {a b : K}

/-- There is one greatest absolute value. -/
theorem unique (ha : IsMaxNorm v a) (hb : IsMaxNorm v b) : a = b := by
  rcases ha.attained with ⟨i, hi⟩ | ⟨hn, hzero⟩
  · rcases hb.attained with ⟨j, hj⟩ | ⟨hn, -⟩
    · exact le_antisymm (hi ▸ hb.bound i) (hj ▸ ha.bound j)
    · subst hn
      exact i.elim0
  · rcases hb.attained with ⟨j, -⟩ | ⟨-, hzero'⟩
    · subst hn
      exact j.elim0
    · rw [hzero, hzero']

/-- It is within a bound if every entry is. -/
theorem le_iff (h : IsMaxNorm v a) {t : K} (ht : 0 ≤ t) : a ≤ t ↔ ∀ i, |v i| ≤ t := by
  constructor
  · intro hle i
    exact (h.bound i).trans hle
  · intro hall
    rcases h.attained with ⟨i, hi⟩ | ⟨-, hzero⟩
    · rw [← hi]
      exact hall i
    · rw [hzero]
      exact ht

/-- The order of the entries does not matter. -/
theorem comp (h : IsMaxNorm v a) (e : Fin n' ≃ Fin n) : IsMaxNorm (v ∘ e) a where
  bound i := h.bound (e i)
  attained := by
    rcases h.attained with ⟨i, hi⟩ | ⟨hn, hzero⟩
    · exact .inl ⟨e.symm i, by simpa using hi⟩
    · exact .inr ⟨(Fin.equiv_iff_eq.1 ⟨e⟩).trans hn, hzero⟩

end IsMaxNorm

/-- The greatest absolute value of a vector, zero for an empty one. -/
def ExactField.maxNorm (v : Fin n → K) : K := Finset.univ.fold max 0 fun i => |v i|

theorem isMaxNorm_maxNorm (v : Fin n → K) : IsMaxNorm v (ExactField.maxNorm v) := by
  have hbound : ∀ i, |v i| ≤ ExactField.maxNorm v := fun i =>
    (Finset.le_fold_max _).2 (.inr ⟨i, Finset.mem_univ i, le_rfl⟩)
  refine ⟨hbound, ?_⟩
  -- The fold is no more than zero, where it starts, or than one of the absolute values.
  rcases (Finset.le_fold_max _).1 (le_refl (ExactField.maxNorm v)) with hzero | ⟨i, -, hi⟩
  · rcases Nat.eq_zero_or_pos n with rfl | hn
    · exact .inr ⟨rfl, rfl⟩
    · have habs : |v ⟨0, hn⟩| = 0 := le_antisymm ((hbound _).trans hzero) (abs_nonneg _)
      exact .inl ⟨⟨0, hn⟩, habs.trans (le_antisymm (habs ▸ hbound _) hzero)⟩
  · exact .inl ⟨i, le_antisymm (hbound i) hi⟩

theorem ExactField.maxNorm_nonneg (v : Fin n → K) : 0 ≤ maxNorm v :=
  (Finset.le_fold_max _).2 (.inl le_rfl)

namespace IsMaxNorm

variable {v : Fin n → K} {a : K}

theorem eq_maxNorm (h : IsMaxNorm v a) : a = ExactField.maxNorm v :=
  h.unique (isMaxNorm_maxNorm v)

/-- A vector times a number that is not negative. -/
theorem smul (h : IsMaxNorm v a) {t : K} (ht : 0 ≤ t) : IsMaxNorm (t • v) (t * a) where
  bound i := by
    rw [Pi.smul_apply, smul_eq_mul, abs_mul, abs_of_nonneg ht]
    exact mul_le_mul_of_nonneg_left (h.bound i) ht
  attained := by
    rcases h.attained with ⟨i, hi⟩ | ⟨hn, hzero⟩
    · exact .inl ⟨i, by rw [Pi.smul_apply, smul_eq_mul, abs_mul, abs_of_nonneg ht, hi]⟩
    · exact .inr ⟨hn, by rw [hzero, mul_zero]⟩

end IsMaxNorm

/-- The product of a vector of small entries with any vector. -/
theorem abs_dotProduct_le {u v : Fin n → K} {t : K} (hu : ∀ i, |u i| ≤ t) :
    |u ⬝ᵥ v| ≤ t * ∑ i, |v i| := by
  have hterm : ∀ i, |u i * v i| ≤ t * |v i| := by
    intro i
    rw [abs_mul]
    exact mul_le_mul_of_nonneg_right (hu i) (abs_nonneg _)
  calc |u ⬝ᵥ v| ≤ ∑ i, |u i * v i| := Finset.abs_sum_le_sum_abs _ _
    _ ≤ ∑ i, t * |v i| := Finset.sum_le_sum fun i _ => hterm i
    _ = t * ∑ i, |v i| := (Finset.mul_sum _ _ _).symm

/-! ### The norm that is computed -/

namespace Tensor

/-- The greatest of some numbers is the smallest of the opposite ones, but for its sign. -/
theorem maximumOf_eq_neg (a : K) (bs : List K) :
    maximumOf a bs = -minimumOf (-a) (bs.map fun b => -b) := by
  induction bs generalizing a with
  | nil => simp [maximumOf, minimumOf]
  | cons b bs ih =>
    have hmax : max b a = -min (-b) (-a) := by
      rw [min_neg_neg, neg_neg]
    simp [maximumOf, minimumOf, keepNaN, ih, hmax]

/-- The greatest entry of a vector that has entries. -/
theorem maximum_vector (v : Fin n → K) (hn : 0 < n) :
    ∃ i, (ofVector v).maximum = .ok (v i) ∧ ∀ j, v j ≤ v i := by
  obtain ⟨i, hi, hle⟩ := minimum_vector (fun i => -v i) hn
  refine ⟨i, ?_, fun j => neg_le_neg_iff.1 (hle j)⟩
  have hneg : (ofVector fun i => -v i).toList = (List.ofFn v).map fun b => -b := by
    rw [toList_ofVector, List.map_ofFn]
    rfl
  rw [minimum, hneg] at hi
  rw [maximum, toList_ofVector]
  cases hv : List.ofFn v with
  | nil => simp [hv] at hi
  | cons a bs =>
    rw [hv] at hi
    have hmin : minimumOf (-a) (bs.map fun b => -b) = -v i := Except.ok.inj hi
    dsimp only
    rw [maximumOf_eq_neg, hmin, neg_neg]

theorem exists_isMaxNorm (v : Fin n → K) (hn : 0 < n) :
    ∃ a, (ofVector v).maxNorm = .ok a ∧ IsMaxNorm v a := by
  have habs : (ofVector v).maxNorm = (ofVector fun i => |v i|).maximum :=
    congrArg maximum (map_ofVector (fun a : K => |a|) v)
  obtain ⟨i, hi, hle⟩ := maximum_vector (fun i => |v i|) hn
  exact ⟨|v i|, habs.trans hi, hle, .inl ⟨i, rfl⟩⟩

end Tensor

theorem exists_isMaxNorm_orZero (v : Fin n → K) :
    ∃ a, maxNormOrZero (Tensor.ofVector v) = .ok a ∧ IsMaxNorm v a := by
  have hsize : (Tensor.ofVector v).size = n := by simp
  rw [maxNormOrZero, hsize]
  rcases Nat.eq_zero_or_pos n with hn | hn
  · subst hn
    exact ⟨0, if_pos rfl, fun i => i.elim0, .inr ⟨rfl, rfl⟩⟩
  · rw [if_neg hn.ne']
    exact Tensor.exists_isMaxNorm v hn

/-! ### Results -/

/-- **The result** at a point where `tau` is not zero, with the norms of the residuals. -/
theorem Progress.exists_result_isMaxNorm (p : Problem K) {s : Progress K} {w : Point K p.m p.n}
    (hs : s.point = w.iterate) (htau : w.tau ≠ 0) (tol : K) (stop : Stop) :
    ∃ primal dual, s.result p tol stop = .ok (s.resultAt w tol stop primal dual) ∧
      IsMaxNorm (p.matrix *ᵥ snapped tol (w.tau⁻¹ • w.x) - p.target) primal ∧
      IsMaxNorm (p.cost - p.matrixᵀ *ᵥ (w.tau⁻¹ • w.y) - w.tau⁻¹ • w.z) dual := by
  obtain ⟨primal, hprimal, hmax⟩ := exists_isMaxNorm_orZero
    (p.matrix *ᵥ snapped tol (w.tau⁻¹ • w.x) - p.target)
  obtain ⟨dual, hdual, hmax'⟩ := Tensor.exists_isMaxNorm
    (p.cost - p.matrixᵀ *ᵥ (w.tau⁻¹ • w.y) - w.tau⁻¹ • w.z) p.n_pos
  refine ⟨primal, dual, ?_, hmax, hmax'⟩
  rw [mulVec_smul] at hdual
  simp [Progress.result, resultAt, hs, Tensor.div_vector_scalar _ _ htau, snap_vector,
    primalResidual, dualResidual, p.A_eq, p.b_eq, p.c_eq, mulVec_smul, hprimal, hdual, pure,
    Except.pure]

end SelfDual
