import Mathlib.LinearAlgebra.Matrix.Symmetric
import SelfDual.NormalEquations
import SelfDual.Proofs.CholeskyFactor
/-!
**The saddle-point system and its normal equations.**

A step solves `Aᵀ v - u / d = r₁`, `A u = r₂` for a positive diagonal `d`.  Elimination leads to the
matrix `A diag(d) Aᵀ`, whose quadratic form is `∑ d (Aᵀ v)²`: it is positive definite exactly if the
rows of `A` are independent.  This module shows that the elimination, carried out by a Cholesky
factor, solves the system it started from, and that the system has no other solution.

Main definitions:

* `SolvesSaddle` — the two equations of the system;
* `Factorization.Inverts` — a factorization that solves every system of a matrix;
* `Factorization.ReturnsSaddle` — what a saddle-point solve with a factorization returns.

Main results:

* `normalMatrix_exact`, `scalingRatio_exact` — the matrix and the diagonal as they are computed;
* `factorize_exact` — the factorization of a matrix is that of its entries;
* `factorize_cases` — a matrix is factored if its lower triangle is that of a positive definite
  one, and then the factorization inverts it;
* `positiveDefinite_normal_iff` — **the normal equations are positive definite exactly for
  independent rows**;
* `factorize_normal_cases` — they are factorized for these and for no others;
* `SolvesSaddle.energy`, `SolvesSaddle.reciprocal`, `SolvesSaddle.eq_of_independent` — the quadratic
  form of the system, its symmetry, and uniqueness;
* `saddleSolve_exact` — **elimination solves the saddle-point system**;
* `saddleSolve_solution` — for independent rows every system is solved by its only solution.
-/

set_option autoImplicit false

open Matrix

namespace SelfDual

variable {K : Type} [ExactField K] {m n : ℕ}

/-! ### Factorizations of a matrix -/

/-- In exact arithmetic the backends factorize alike. -/
theorem Backend.variant_exact (backend : Backend) :
    (backend.variant : Cholesky.Variant K) = .exact := by
  cases backend with
  | host => simp [variant, Cholesky.Variant.exact, div_eq_mul_inv]
  | device => simp [variant, Cholesky.Variant.exact, ← not_lt]

/-- The factorization solves every system of the matrix. -/
def Factorization.Inverts (f : Factorization K) (M : Matrix (Fin m) (Fin m) K) : Prop :=
  ∀ r : Fin m → K, ∃ v, f.solve (.ofVector r) = .ok (.ofVector v) ∧ M *ᵥ v = r

/-- The symmetric matrix with the lower triangle of a matrix. -/
def symmetricLower {α : Type} (M : Matrix (Fin m) (Fin m) α) : Matrix (Fin m) (Fin m) α :=
  of fun i j => M (max i j) (min i j)

theorem symmetricLower_of_isSymm {α : Type} {M : Matrix (Fin m) (Fin m) α} (h : M.IsSymm) :
    symmetricLower M = M := by
  ext i j
  rcases le_total i j with hij | hij
  · simpa [symmetricLower, hij] using h.apply i j
  · simp [symmetricLower, hij]

theorem symmetric_entries (M : Matrix (Fin m) (Fin m) K) :
    Cholesky.symmetric (fun i j => (Tensor.ofMatrix M).entry (i * m + j)) m =
      symmetricLower M := by
  ext i j
  have h := Tensor.entry_ofMatrix M (max i j) (min i j)
  simpa [Cholesky.symmetric, symmetricLower] using h

/-- A solve with the rows of a factor. -/
theorem inverts_of_factor {backend : Backend} {M : Matrix (Fin m) (Fin m) K}
    {rows : List (Cholesky.Row K)} (hm : m ≠ 0)
    (h : Cholesky.factor .exact (fun i j => (Tensor.ofMatrix M).entry (i * m + j)) m = .ok rows) :
    (⟨backend, m, rows⟩ : Factorization K).Inverts (symmetricLower M) := by
  intro r
  obtain ⟨u, hu, hM⟩ := Cholesky.solve_of_factor h r
  rw [symmetric_entries] at hM
  have hlist : ((List.range m).map fun k => (Tensor.ofVector r).entry (0 + k * 1)) =
      List.ofFn r := by
    refine List.ext_getElem (by simp) fun i h₁ h₂ => ?_
    have hi : i < m := by simpa using h₁
    simpa using Tensor.entry_ofVector r ⟨i, hi⟩
  have hsolve : (⟨backend, m, rows⟩ : Factorization K).solveEntries (.ofVector r) 0 1 =
      List.ofFn u := by
    rw [Factorization.solveEntries, Backend.variant_exact, hlist, hu]
  refine ⟨u, ?_, hM⟩
  cases backend <;> simp [Factorization.solve, hm, hsolve, Tensor.ofList_ofFn]

/-- A matrix that has an order is factorized by the exact factorization of its entries. -/
theorem factorize_exact (backend : Backend) (M : Matrix (Fin m) (Fin m) K) (hm : m ≠ 0) :
    factorize backend (.ofMatrix M) =
      match Cholesky.factor .exact (fun i j => (Tensor.ofMatrix M).entry (i * m + j)) m with
      | .ok rows => .ok ⟨backend, m, rows⟩
      | .error order => .error (.breakdown (.notPositiveDefinite backend order)) := by
  have hsquare : factorize backend (.ofMatrix M) = factorizeSquare backend (.ofMatrix M) m := by
    simp [factorize]
  rw [hsquare, factorizeSquare, if_neg hm, Tensor.isFinite_exact, Backend.variant_exact]
  rfl

/-- **What a factorization of a matrix can end with**: an inverse of the symmetric matrix with its
lower triangle, which is then positive definite, or the order of the smallest leading block that is
not positive definite. -/
theorem factorize_cases (backend : Backend) (M : Matrix (Fin m) (Fin m) K) :
    (∃ f, factorize backend (.ofMatrix M) = .ok f ∧ f.Inverts (symmetricLower M) ∧
      Cholesky.PositiveDefinite (symmetricLower M)) ∨
    (∃ order, factorize backend (.ofMatrix M) =
        .error (.breakdown (.notPositiveDefinite backend order)) ∧
      ¬Cholesky.PositiveDefinite (symmetricLower M)) := by
  -- A matrix of order zero is not factored at all.
  by_cases hm : m = 0
  · subst hm
    refine .inl ⟨⟨backend, 0, []⟩, by simp [factorize, factorizeSquare],
      fun r => ⟨r, ?_, funext fun i => i.elim0⟩, fun v hv => ?_⟩
    · simp only [Factorization.solve, if_pos]
      exact congrArg Except.ok (Tensor.eq_ofVector rfl fun i => i.elim0)
    · exact absurd (funext fun i => i.elim0) hv
  · rw [factorize_exact backend M hm, ← symmetric_entries]
    cases hfac : Cholesky.factor .exact (fun i j => (Tensor.ofMatrix M).entry (i * m + j)) m with
    | ok rows =>
      refine .inl ⟨_, rfl, ?_, (Cholesky.factor_eq_ok_iff _ m).1 ⟨rows, hfac⟩⟩
      rw [symmetric_entries]
      exact inverts_of_factor hm hfac
    | error order =>
      refine .inr ⟨order, rfl, fun hpd => ?_⟩
      obtain ⟨rows, hrows⟩ := (Cholesky.factor_eq_ok_iff _ m).2 hpd
      rw [hrows] at hfac
      cases hfac

/-! ### The normal equations -/

/-- The matrix of the normal equations. -/
def normal (A : Matrix (Fin m) (Fin n) K) (d : Fin n → K) : Matrix (Fin m) (Fin m) K :=
  A * diagonal d * Aᵀ

theorem normal_isSymm (A : Matrix (Fin m) (Fin n) K) (d : Fin n → K) : (normal A d).IsSymm := by
  simp [normal, IsSymm, transpose_mul, Matrix.mul_assoc]

@[simp] theorem symmetrize_of_isSymm (traps : Traps) {M : Matrix (Fin m) (Fin m) K}
    (h : M.IsSymm) : symmetrize traps (.ofMatrix M) = .ok (.ofMatrix M) := by
  have hhalf : (Scalar.half : K) • (M + Mᵀ) = M := by
    rw [h, Scalar.half_exact, ← two_smul K M, smul_smul]
    norm_num
  simp [symmetrize, hhalf]

/-- The matrix `A diag(d) Aᵀ` as it is computed. -/
@[simp] theorem normalMatrix_exact (traps : Traps) (A : Matrix (Fin m) (Fin n) K) (d : Fin n → K) :
    normalMatrix traps (.ofMatrix A) (.ofVector d) = .ok (.ofMatrix (normal A d)) := by
  have hsymm : (A * diagonal d * Aᵀ).IsSymm := normal_isSymm A d
  simp [normalMatrix, normal, hsymm]

theorem normal_mulVec (A : Matrix (Fin m) (Fin n) K) (d : Fin n → K) (v : Fin m → K) :
    normal A d *ᵥ v = A *ᵥ (d * (Aᵀ *ᵥ v)) := by
  rw [normal, ← mulVec_mulVec, ← mulVec_mulVec]
  exact congrArg (A *ᵥ ·) (funext fun j => mulVec_diagonal _ _ j)

/-- The quadratic form of the normal equations. -/
theorem dotProduct_normal (A : Matrix (Fin m) (Fin n) K) (d : Fin n → K) (v : Fin m → K) :
    v ⬝ᵥ (normal A d *ᵥ v) = ∑ j, d j * ((Aᵀ *ᵥ v) j * (Aᵀ *ᵥ v) j) := by
  rw [normal_mulVec, dotProduct_mulVec, ← mulVec_transpose]
  refine Finset.sum_congr rfl fun j _ => ?_
  rw [Pi.mul_apply]
  ring

/-- Independent rows are those that only the zero vector combines to zero. -/
theorem independent_rows_iff (A : Matrix (Fin m) (Fin n) K) :
    LinearIndependent K A.row ↔ ∀ v, Aᵀ *ᵥ v = 0 → v = 0 := by
  have h := Matrix.mulVec_injective_iff (R := K) (M := Aᵀ)
  rw [col_transpose] at h
  rw [← h]
  constructor
  · intro hinj v hv
    exact hinj (hv.trans (mulVec_zero _).symm)
  · intro hzero u v huv
    refine sub_eq_zero.1 (hzero _ ?_)
    rw [mulVec_sub, sub_eq_zero]
    exact huv

/-- **The normal equations are positive definite exactly for independent rows.** -/
theorem positiveDefinite_normal_iff (A : Matrix (Fin m) (Fin n) K) {d : Fin n → K}
    (hd : ∀ j, 0 < d j) :
    Cholesky.PositiveDefinite (normal A d) ↔ LinearIndependent K A.row := by
  rw [independent_rows_iff]
  constructor
  · intro hpd v hv
    by_contra hne
    have := hpd v hne
    rw [dotProduct_normal, hv] at this
    simp at this
  · intro hzero v hne
    -- The form is a sum of squares with positive weights.
    have hterm : ∀ j, 0 ≤ d j * ((Aᵀ *ᵥ v) j * (Aᵀ *ᵥ v) j) :=
      fun j => mul_nonneg (hd j).le (mul_self_nonneg _)
    rw [dotProduct_normal]
    refine lt_of_le_of_ne (Finset.sum_nonneg fun j _ => hterm j) fun hsum => hne (hzero v ?_)
    funext j
    have hj := (Finset.sum_eq_zero_iff_of_nonneg fun j _ => hterm j).1 hsum.symm j
      (Finset.mem_univ j)
    exact mul_self_eq_zero.1 ((mul_eq_zero.1 hj).resolve_left (hd j).ne')

/-- **The normal equations are factorized exactly for independent rows.** -/
theorem factorize_normal_cases (backend : Backend) (A : Matrix (Fin m) (Fin n) K) {d : Fin n → K}
    (hd : ∀ j, 0 < d j) :
    (∃ f, factorize backend (.ofMatrix (normal A d)) = .ok f ∧ f.Inverts (normal A d) ∧
      LinearIndependent K A.row) ∨
    (∃ order, factorize backend (.ofMatrix (normal A d)) =
        .error (.breakdown (.notPositiveDefinite backend order)) ∧
      ¬LinearIndependent K A.row) := by
  have hcases := factorize_cases backend (normal A d)
  rwa [symmetricLower_of_isSymm (normal_isSymm A d), positiveDefinite_normal_iff A hd] at hcases

/-! ### Ratios -/

/-- The scaling is the ratio of two vectors, refused unless it is positive. -/
theorem scalingRatio_exact (x z : Fin n → K) [Decidable (∀ i, 0 < x i / z i)] :
    scalingRatio (.ofVector x) (.ofVector z) =
      if ∀ i, 0 < x i / z i then .ok (.ofVector (x / z))
      else .error (.breakdown .ratioNotPositive) := by
  have hany : (Tensor.ofVector (x / z)).any (fun a => decide (a ≤ 0)) = true ↔
      ¬∀ i, 0 < x i / z i := by
    rw [Tensor.any_ofVector]
    simp
  rw [scalingRatio, Tensor.div_off_vectors, ok_bind, Tensor.isFinite_exact]
  by_cases h : ∀ i, 0 < x i / z i
  · have hfalse : (Tensor.ofVector (x / z)).any (fun a => decide (a ≤ 0)) = false :=
      Bool.eq_false_iff.2 fun ht => hany.1 ht h
    rw [if_pos h, hfalse]
    rfl
  · rw [if_neg h, hany.2 h]
    rfl

/-! ### The saddle-point system -/

/-- The saddle-point system `Aᵀ v - u / d = r₁`, `A u = r₂`. -/
structure SolvesSaddle (A : Matrix (Fin m) (Fin n) K) (d r₁ : Fin n → K) (r₂ : Fin m → K)
    (u : Fin n → K) (v : Fin m → K) : Prop where
  stationary : Aᵀ *ᵥ v - u / d = r₁
  feasible : A *ᵥ u = r₂

namespace SolvesSaddle

variable {A : Matrix (Fin m) (Fin n) K} {d r₁ s₁ : Fin n → K} {r₂ s₂ : Fin m → K}
  {u p : Fin n → K} {v q : Fin m → K}

/-- The system is linear. -/
theorem sub_smul (h : SolvesSaddle A d r₁ r₂ u v) (h' : SolvesSaddle A d s₁ s₂ p q) (t : K) :
    SolvesSaddle A d (r₁ - t • s₁) (r₂ - t • s₂) (u - t • p) (v - t • q) where
  stationary := by
    rw [← h.stationary, ← h'.stationary, mulVec_sub, mulVec_smul]
    funext j
    simp only [Pi.sub_apply, Pi.smul_apply, Pi.div_apply, smul_eq_mul]
    ring
  feasible := by rw [mulVec_sub, mulVec_smul, h.feasible, h'.feasible]

/-- The blocks off the diagonal are adjoint. -/
theorem transpose_mulVec_dotProduct (h : SolvesSaddle A d r₁ r₂ u v) (w : Fin m → K) :
    (Aᵀ *ᵥ w) ⬝ᵥ u = r₂ ⬝ᵥ w := by
  rw [dotProduct_comm, dotProduct_transpose_mulVec, h.feasible, dotProduct_comm]

/-- **The quadratic form of the system** at its solution. -/
theorem energy (h : SolvesSaddle A d r₁ r₂ u v) :
    -r₁ ⬝ᵥ u + r₂ ⬝ᵥ v = ∑ j, u j * u j / d j := by
  have hform : (u / d) ⬝ᵥ u = ∑ j, u j * u j / d j :=
    Finset.sum_congr rfl fun j _ => by rw [Pi.div_apply, div_mul_eq_mul_div]
  rw [← h.stationary, neg_dotProduct, sub_dotProduct, h.transpose_mulVec_dotProduct, hform]
  ring

/-- **Reciprocity**: each of two right-hand sides, paired with the solution for the other one, gives
the same. -/
theorem reciprocal (h : SolvesSaddle A d r₁ r₂ u v) (h' : SolvesSaddle A d s₁ s₂ p q) :
    s₁ ⬝ᵥ u + s₂ ⬝ᵥ v = r₁ ⬝ᵥ p + r₂ ⬝ᵥ q := by
  have hu : (Aᵀ *ᵥ q) ⬝ᵥ u = r₂ ⬝ᵥ q := h.transpose_mulVec_dotProduct q
  have hp : (Aᵀ *ᵥ v) ⬝ᵥ p = s₂ ⬝ᵥ v := h'.transpose_mulVec_dotProduct v
  -- The diagonal block is symmetric.
  have hdiagonal : (p / d) ⬝ᵥ u = (u / d) ⬝ᵥ p :=
    Finset.sum_congr rfl fun j _ => by
      rw [Pi.div_apply, Pi.div_apply]
      ring
  rw [← h.stationary, ← h'.stationary, sub_dotProduct, sub_dotProduct, hu, hp, hdiagonal]
  ring

/-- The form is a sum of squares with positive weights. -/
theorem energy_nonneg (hd : ∀ j, 0 < d j) (u : Fin n → K) : 0 ≤ ∑ j, u j * u j / d j :=
  Finset.sum_nonneg fun j _ => div_nonneg (mul_self_nonneg (u j)) (hd j).le

/-- The form vanishes only where `u` does. -/
theorem eq_zero_of_energy (hd : ∀ j, 0 < d j) (h : ∑ j, u j * u j / d j = 0) : u = 0 := by
  have hterm : ∀ j, 0 ≤ u j * u j / d j := fun j => div_nonneg (mul_self_nonneg _) (hd j).le
  funext j
  have hj := (Finset.sum_eq_zero_iff_of_nonneg fun j _ => hterm j).1 h j (Finset.mem_univ j)
  exact mul_self_eq_zero.1 ((div_eq_zero_iff.1 hj).resolve_right (hd j).ne')

/-- **Independent rows leave one solution at most.** -/
theorem eq_of_independent (hd : ∀ j, 0 < d j) (hA : LinearIndependent K A.row)
    (h : SolvesSaddle A d r₁ r₂ u v) (h' : SolvesSaddle A d r₁ r₂ p q) : u = p ∧ v = q := by
  -- The difference solves the system with zero on the right, where the quadratic form vanishes.
  have hdiff := h.sub_smul h' 1
  simp only [one_smul, sub_self] at hdiff
  have hu : u - p = 0 := eq_zero_of_energy hd (by simpa using hdiff.energy.symm)
  have hzero : (0 : Fin n → K) / d = 0 := funext fun j => zero_div (d j)
  have hv : Aᵀ *ᵥ (v - q) = 0 := by simpa [hu, hzero] using hdiff.stationary
  exact ⟨sub_eq_zero.1 hu, sub_eq_zero.1 ((independent_rows_iff A).1 hA _ hv)⟩

end SolvesSaddle

/-- **Elimination solves the saddle-point system.** -/
theorem saddleSolve_exact (traps : Traps) {f : Factorization K} {A : Matrix (Fin m) (Fin n) K}
    {d : Fin n → K} (hf : f.Inverts (normal A d)) (hd : ∀ j, d j ≠ 0) (r₁ : Fin n → K)
    (r₂ : Fin m → K) :
    ∃ u v, saddleSolve traps f (.ofMatrix A) (.ofVector d) (.ofVector r₁) (.ofVector r₂) =
        .ok (.ofVector u, .ofVector v) ∧
      SolvesSaddle A d r₁ r₂ u v := by
  obtain ⟨v, hv, hM⟩ := hf (r₂ + A *ᵥ (d * r₁))
  refine ⟨d * (Aᵀ *ᵥ v - r₁), v, by simp [saddleSolve, hv, pure, Except.pure], ?_, ?_⟩
  · funext j
    simp [mul_div_cancel_left₀ _ (hd j)]
  · rw [normal_mulVec] at hM
    rw [mul_sub, mulVec_sub, hM, add_sub_cancel_right]

/-! ### The system solved -/

/-- A saddle-point solve with a factorization returns a pair of vectors. -/
def Factorization.ReturnsSaddle (traps : Traps) (f : Factorization K)
    (A : Matrix (Fin m) (Fin n) K) (d r₁ : Fin n → K) (r₂ : Fin m → K) (u : Fin n → K)
    (v : Fin m → K) : Prop :=
  saddleSolve traps f (.ofMatrix A) (.ofVector d) (.ofVector r₁) (.ofVector r₂) =
    .ok (.ofVector u, .ofVector v)

/-- What a solve returns is the solution, if the factorization inverts the normal equations. -/
theorem Factorization.ReturnsSaddle.solvesSaddle {traps : Traps} {f : Factorization K}
    {A : Matrix (Fin m) (Fin n) K} {d r₁ : Fin n → K} {r₂ : Fin m → K} {u : Fin n → K}
    {v : Fin m → K} (h : f.ReturnsSaddle traps A d r₁ r₂ u v) (hf : f.Inverts (normal A d))
    (hd : ∀ j, d j ≠ 0) : SolvesSaddle A d r₁ r₂ u v := by
  obtain ⟨u', v', hsolve, hsaddle⟩ := saddleSolve_exact traps hf hd r₁ r₂
  obtain ⟨hu, hv⟩ := Prod.mk.inj (Except.ok.inj (hsolve.symm.trans h))
  rwa [← Tensor.ofVector_injective hu, ← Tensor.ofVector_injective hv]

/-- **The saddle-point systems of a matrix with independent rows and of a positive diagonal are
solved.**  The normal equations are factorized once, by either backend, and with the factorization
every right-hand side has its one and only solution.  The solutions are reciprocal, and each has the
quadratic form of the system for its pairing with the right-hand side. -/
theorem saddleSolve_solution (traps : Traps) (backend : Backend) {A : Matrix (Fin m) (Fin n) K}
    {d : Fin n → K} (hA : LinearIndependent K A.row) (hd : ∀ j, 0 < d j) :
    ∃ f, (normalMatrix traps (.ofMatrix A) (.ofVector d) >>= factorize backend) = .ok f ∧
      (∀ r₁ r₂, ∃ u v, f.ReturnsSaddle traps A d r₁ r₂ u v ∧
        ∀ u' v', SolvesSaddle A d r₁ r₂ u' v' ↔ u' = u ∧ v' = v) ∧
      (∀ r₁ r₂ s₁ s₂ u v p q, f.ReturnsSaddle traps A d r₁ r₂ u v →
        f.ReturnsSaddle traps A d s₁ s₂ p q →
        s₁ ⬝ᵥ u + s₂ ⬝ᵥ v = r₁ ⬝ᵥ p + r₂ ⬝ᵥ q) ∧
      ∀ r₁ r₂ u v, f.ReturnsSaddle traps A d r₁ r₂ u v →
        -r₁ ⬝ᵥ u + r₂ ⬝ᵥ v = ∑ j, u j * u j / d j ∧ 0 ≤ ∑ j, u j * u j / d j := by
  obtain ⟨f, hf, hinverts, -⟩ | ⟨order, -, hdependent⟩ := factorize_normal_cases backend A hd
  swap
  · exact absurd hA hdependent
  have hfactorize : (normalMatrix traps (.ofMatrix A) (.ofVector d) >>= factorize backend) =
      .ok f := by
    rw [normalMatrix_exact, ok_bind, hf]
  have hne : ∀ j, d j ≠ 0 := fun j => (hd j).ne'
  refine ⟨f, hfactorize, fun r₁ r₂ => ?_, fun r₁ r₂ s₁ s₂ u v p q h h' => ?_, fun r₁ r₂ u v h => ?_⟩
  case refine_1 =>
    obtain ⟨u, v, hsolve, hsaddle⟩ := saddleSolve_exact traps hinverts hne r₁ r₂
    refine ⟨u, v, hsolve, fun u' v' => ⟨fun h => h.eq_of_independent hd hA hsaddle, ?_⟩⟩
    rintro ⟨rfl, rfl⟩
    exact hsaddle
  case refine_2 =>
    exact (h.solvesSaddle hinverts hne).reciprocal (h'.solvesSaddle hinverts hne)
  case refine_3 =>
    exact ⟨(h.solvesSaddle hinverts hne).energy, SolvesSaddle.energy_nonneg hd u⟩

/-- A single row, for which the solve returns the solution that is found by hand. -/
theorem saddleSolve_solution_row :
    ∃ f, (normalMatrix .on (.ofMatrix (!![1, 1] : Matrix (Fin 1) (Fin 2) ℝ)) (.ofVector ![1, 2]) >>=
        factorize .host) = .ok f ∧
      f.ReturnsSaddle .on !![1, 1] ![1, 2] ![0, 0] ![3] ![1, 2] ![1] := by
  have hrow : LinearIndependent ℝ (!![1, 1] : Matrix (Fin 1) (Fin 2) ℝ).row := by
    rw [independent_rows_iff]
    intro v hv
    funext i
    have hfirst : v 0 = 0 := by simpa [mulVec, dotProduct] using congrFun hv 0
    rwa [Subsingleton.elim i 0]
  have hdiagonal : ∀ j, 0 < (![1, 2] : Fin 2 → ℝ) j := by
    intro j
    fin_cases j <;> norm_num
  have hsolves : SolvesSaddle (!![1, 1] : Matrix (Fin 1) (Fin 2) ℝ) ![1, 2] ![0, 0] ![3] ![1, 2]
      ![1] := by
    constructor
    · funext j
      fin_cases j <;> norm_num [mulVec, dotProduct]
    · funext i
      fin_cases i
      norm_num [mulVec, dotProduct, Fin.sum_univ_two]
  obtain ⟨f, hf, hsolution, -⟩ := saddleSolve_solution .on .host hrow hdiagonal
  obtain ⟨u, v, hreturns, hunique⟩ := hsolution ![0, 0] ![3]
  obtain ⟨rfl, rfl⟩ := (hunique _ _).1 hsolves
  exact ⟨f, hf, hreturns⟩

end SelfDual
