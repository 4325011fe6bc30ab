import SelfDual.Cholesky
import SelfDual.Proofs.Vectors
/-!
**The exact Cholesky factorization.**

A factor is a lower triangular matrix with a positive diagonal that is found row by row, so it is
treated here as what it is: a sequence of borders.  Substitution from the top and from the bottom
follow the borders, and so does the quadratic form of the factored matrix.  The matrix itself is
the symmetric one whose lower triangle is read.

Main definitions:

* `Cholesky.Triangle` — a lower triangular matrix with a positive diagonal;
* `Cholesky.Variant.exact` — the exact choices of a factorization;
* `Cholesky.symmetric` — the symmetric matrix with a given lower triangle;
* `Cholesky.PositiveDefinite` — the quadratic form is positive.

Main results:

* `Cholesky.forward_rows`, `Cholesky.backward_rows` — substitution solves triangular systems;
* `Cholesky.factor_cases` — **what a factorization can end with**: a triangle whose product with its
  transpose is the matrix, or the smallest leading block that is not positive definite;
* `Cholesky.factor_eq_ok_iff` — **a matrix is factored exactly if it is positive definite**;
* `Cholesky.solve_of_factor` — a solve with the factor solves the system.
-/

set_option autoImplicit false

open Matrix

namespace SelfDual.Cholesky

/-! ### Vectors with a last entry -/

section Extend

variable {α : Type} {k : ℕ}

/-- A vector with one more entry at its end. -/
def extend (v : Fin k → α) (a : α) : Fin (k + 1) → α := Fin.snoc v a

@[simp] theorem extend_castSucc (v : Fin k → α) (a : α) (i : Fin k) :
    extend v a i.castSucc = v i := Fin.snoc_castSucc ..

@[simp] theorem extend_last (v : Fin k → α) (a : α) : extend v a (Fin.last k) = a :=
  Fin.snoc_last ..

/-- Every vector with an entry has a last one. -/
theorem exists_extend (v : Fin (k + 1) → α) : ∃ w a, v = extend w a :=
  ⟨Fin.init v, v (Fin.last k), (Fin.snoc_init_self v).symm⟩

/-- Two vectors are equal if they are so before the end and at it. -/
theorem extend_ext {u v : Fin (k + 1) → α} (h : ∀ i : Fin k, u i.castSucc = v i.castSucc)
    (hl : u (Fin.last k) = v (Fin.last k)) : u = v :=
  funext fun i => Fin.lastCases hl h i

theorem extend_inj {u v : Fin k → α} {a b : α} : extend u a = extend v b ↔ u = v ∧ a = b := by
  constructor
  · intro h
    refine ⟨funext fun i => ?_, ?_⟩
    · simpa using congrFun h i.castSucc
    · simpa using congrFun h (Fin.last k)
  · rintro ⟨rfl, rfl⟩
    rfl

theorem ofFn_extend (v : Fin k → α) (a : α) :
    List.ofFn (extend v a) = List.ofFn v ++ [a] := by
  rw [List.ofFn_succ', List.concat_eq_append]
  simp

theorem zipWith_ofFn (f : α → α → α) (u v : Fin k → α) :
    List.zipWith f (List.ofFn u) (List.ofFn v) = List.ofFn fun i => f (u i) (v i) := by
  refine List.ext_getElem (by simp) ?_
  intro i h₁ h₂
  simp

end Extend

variable {K : Type} [ExactField K] {k : ℕ}

theorem extend_zero : extend (0 : Fin k → K) 0 = 0 :=
  extend_ext (fun i => by simp) (by simp)

@[simp] theorem extend_dotProduct_extend (u v : Fin k → K) (a b : K) :
    extend u a ⬝ᵥ extend v b = u ⬝ᵥ v + a * b := by
  simp [dotProduct, Fin.sum_univ_castSucc]

theorem extend_add_smul (u v : Fin k → K) (a b c : K) :
    extend u a + c • extend v b = extend (u + c • v) (a + c * b) :=
  extend_ext (fun i => by simp) (by simp)

/-! ### Sums over lists -/

theorem inner_ofFn (u v : Fin k → K) : inner (List.ofFn u) (List.ofFn v) = u ⬝ᵥ v := by
  have h : ∀ (n : ℕ) (f : Fin n → K) (s : K), (List.ofFn f).foldl (· + ·) s = s + ∑ i, f i := by
    intro n
    induction n with
    | zero => intro f s; simp
    | succ n ih => intro f s; simp [List.ofFn_succ, ih, Fin.sum_univ_succ, add_assoc]
  rw [inner, zipWith_ofFn]
  exact (h k _ 0).trans (zero_add _)

theorem reduce_ofFn (s : K) (u v : Fin k → K) :
    reduce s (List.ofFn u) (List.ofFn v) = s - u ⬝ᵥ v := by
  have h : ∀ (n : ℕ) (f : Fin n → K) (s : K), (List.ofFn f).foldl (· - ·) s = s - ∑ i, f i := by
    intro n
    induction n with
    | zero => intro f s; simp
    | succ n ih => intro f s; simp [List.ofFn_succ, ih, Fin.sum_univ_succ, sub_sub]
  rw [reduce, zipWith_ofFn]
  exact h k _ s

/-! ### Triangles -/

/-- A lower triangular matrix with a positive diagonal, one border after the other. -/
inductive Triangle (K : Type) [ExactField K] : ℕ → Type
  | nil : Triangle K 0
  | border {k : ℕ} (L : Triangle K k) (below : Fin k → K) (diagonal : K) (pos : 0 < diagonal) :
      Triangle K (k + 1)

namespace Triangle

/-- The rows of a triangle. -/
def rows : {k : ℕ} → Triangle K k → List (Row K)
  | _, nil => []
  | _, border L below diagonal _ => L.rows ++ [⟨List.ofFn below, diagonal⟩]

/-- The triangle times a vector. -/
def apply : {k : ℕ} → Triangle K k → (Fin k → K) → Fin k → K
  | _, nil, v => v
  | _, border L below diagonal _, v =>
    extend (L.apply (Fin.init v)) (below ⬝ᵥ Fin.init v + diagonal * v (Fin.last _))

/-- The transposed triangle times a vector. -/
def applyTranspose : {k : ℕ} → Triangle K k → (Fin k → K) → Fin k → K
  | _, nil, v => v
  | _, border L below diagonal _, v =>
    extend (L.applyTranspose (Fin.init v) + v (Fin.last _) • below) (diagonal * v (Fin.last _))

@[simp] theorem length_rows (L : Triangle K k) : L.rows.length = k := by
  induction L with
  | nil => rfl
  | border L below diagonal pos ih => simp [rows, ih]

@[simp] theorem apply_border (L : Triangle K k) (below : Fin k → K) {d : K} (pos : 0 < d)
    (v : Fin k → K) (a : K) :
    (border L below d pos).apply (extend v a) = extend (L.apply v) (below ⬝ᵥ v + d * a) := by
  simp [apply, extend]

@[simp] theorem applyTranspose_border (L : Triangle K k) (below : Fin k → K) {d : K}
    (pos : 0 < d) (v : Fin k → K) (a : K) :
    (border L below d pos).applyTranspose (extend v a) =
      extend (L.applyTranspose v + a • below) (d * a) := by
  simp [applyTranspose, extend]

/-- A triangle is linear. -/
theorem apply_add_smul (L : Triangle K k) (u v : Fin k → K) (c : K) :
    L.apply (u + c • v) = L.apply u + c • L.apply v := by
  induction L with
  | nil => rfl
  | border L below d pos ih =>
    obtain ⟨u, a, rfl⟩ := exists_extend u
    obtain ⟨v, b, rfl⟩ := exists_extend v
    rw [extend_add_smul, apply_border, apply_border, apply_border, extend_add_smul, ih,
      extend_inj, dotProduct_add, dotProduct_smul, smul_eq_mul]
    exact ⟨rfl, by ring⟩

/-- The transposed triangle is the adjoint of the triangle. -/
theorem apply_dotProduct (L : Triangle K k) (u v : Fin k → K) :
    L.apply u ⬝ᵥ v = u ⬝ᵥ L.applyTranspose v := by
  induction L with
  | nil => rfl
  | border L below d pos ih =>
    obtain ⟨u, a, rfl⟩ := exists_extend u
    obtain ⟨v, b, rfl⟩ := exists_extend v
    rw [apply_border, applyTranspose_border, extend_dotProduct_extend, extend_dotProduct_extend,
      ih, dotProduct_add, dotProduct_smul, dotProduct_comm below u, smul_eq_mul]
    ring

/-- A transposed triangle vanishes only at zero. -/
theorem eq_zero_of_applyTranspose (L : Triangle K k) {v : Fin k → K}
    (h : L.applyTranspose v = 0) : v = 0 := by
  induction L with
  | nil => exact h
  | border L below d pos ih =>
    obtain ⟨v, a, rfl⟩ := exists_extend v
    rw [applyTranspose_border, ← extend_zero, extend_inj] at h
    obtain ⟨hv, ha⟩ := h
    have ha0 : a = 0 := (mul_eq_zero.1 ha).resolve_left pos.ne'
    rw [ha0, zero_smul, add_zero] at hv
    rw [ih hv, ha0, extend_zero]

end Triangle

/-! ### Substitution -/

/-- The exact choices: a pivot is refused unless it is positive, and numbers are divided. -/
def Variant.exact : Variant K := ⟨fun pivot => pivot ≤ 0, fun a d => a / d⟩

theorem forward_append (v : Variant K) {rows : List (Row K)} {r : List K} (row : Row K) (s : K)
    (h : rows.length = r.length) :
    forward v (rows ++ [row]) (r ++ [s]) = forward v rows r ++
      [v.quotient (reduce s row.below (forward v rows r)) row.diagonal] := by
  simp [forward, List.zip_append h]

/-- **Substitution from the top** solves a triangular system. -/
theorem forward_rows (L : Triangle K k) (r : Fin k → K) :
    ∃ w, forward .exact L.rows (List.ofFn r) = List.ofFn w ∧ L.apply w = r := by
  induction L with
  | nil => exact ⟨r, by simp [Triangle.rows, forward], rfl⟩
  | border L below d pos ih =>
    obtain ⟨r, s, rfl⟩ := exists_extend r
    obtain ⟨w, hw, hL⟩ := ih r
    refine ⟨extend w ((s - below ⬝ᵥ w) / d), ?_, ?_⟩
    · rw [Triangle.rows, ofFn_extend, forward_append _ _ _ (by simp), hw, ofFn_extend,
        reduce_ofFn]
      rfl
    · rw [Triangle.apply_border, hL, mul_div_cancel₀ _ pos.ne', add_sub_cancel]

/-- **Substitution from the bottom** solves a transposed triangular system. -/
theorem backward_rows (L : Triangle K k) (w : Fin k → K) (found : List K) :
    ∃ u, backward .exact L.rows.reverse (List.ofFn w).reverse found = List.ofFn u ++ found ∧
      L.applyTranspose u = w := by
  induction L generalizing found with
  | nil => exact ⟨w, by simp [Triangle.rows, backward], rfl⟩
  | border L below d pos ih =>
    obtain ⟨w, s, rfl⟩ := exists_extend w
    -- The last unknown is found first, and what it contributes is taken off the others.
    obtain ⟨u, hu, hL⟩ := ih (fun i => w i - below i * (s / d)) (s / d :: found)
    refine ⟨extend u (s / d), ?_, ?_⟩
    · have hrest : List.zipWith (fun s' l => s' - l * (s / d)) (List.ofFn w).reverse
          (List.ofFn below).reverse = (List.ofFn fun i => w i - below i * (s / d)).reverse := by
        rw [← List.reverse_zipWith (by simp), zipWith_ofFn]
      rw [Triangle.rows, ofFn_extend, ofFn_extend, List.reverse_append, List.reverse_append,
        List.append_assoc]
      exact (congrArg (fun l => backward .exact L.rows.reverse l (s / d :: found)) hrest).trans hu
    · have hw : L.applyTranspose u + (s / d) • below = w := by
        rw [hL]
        funext i
        simp [mul_comm]
      rw [Triangle.applyTranspose_border, hw, mul_div_cancel₀ _ pos.ne']

/-! ### The factored matrix -/

/-- The symmetric matrix of order `k` whose lower triangle is that of `S`. -/
def symmetric (S : ℕ → ℕ → K) (k : ℕ) : Matrix (Fin k) (Fin k) K :=
  of fun i j => S (max i j) (min i j)

/-- The row of `S` that borders the block of order `k`. -/
def borderRow (S : ℕ → ℕ → K) (k : ℕ) : Fin k → K := fun j => S k j

/-- The symmetric matrix is bordered by a row, the same column and a diagonal entry. -/
theorem symmetric_mulVec_extend (S : ℕ → ℕ → K) (v : Fin k → K) (a : K) :
    symmetric S (k + 1) *ᵥ extend v a =
      extend (symmetric S k *ᵥ v + a • borderRow S k) (borderRow S k ⬝ᵥ v + S k k * a) := by
  refine extend_ext (fun i => ?_) ?_
  · have hi : (i : ℕ) ≤ k := i.isLt.le
    simp [mulVec, dotProduct, Fin.sum_univ_castSucc, symmetric, borderRow, hi, mul_comm]
  · have hj : ∀ j : Fin k, (j : ℕ) ≤ k := fun j => j.isLt.le
    simp [mulVec, dotProduct, Fin.sum_univ_castSucc, symmetric, borderRow, hj]

/-- A matrix whose quadratic form is positive. -/
def PositiveDefinite (M : Matrix (Fin k) (Fin k) K) : Prop :=
  ∀ v : Fin k → K, v ≠ 0 → 0 < v ⬝ᵥ (M *ᵥ v)

/-- The triangle times its transpose is the matrix. -/
def Triangle.Factors (L : Triangle K k) (M : Matrix (Fin k) (Fin k) K) : Prop :=
  ∀ v, L.apply (L.applyTranspose v) = M *ᵥ v

/-- A matrix that has a factor is positive definite. -/
theorem Triangle.Factors.positiveDefinite {L : Triangle K k} {M : Matrix (Fin k) (Fin k) K}
    (h : L.Factors M) : PositiveDefinite M := by
  intro v hv
  have hT : L.applyTranspose v ≠ 0 := fun h0 => hv (L.eq_zero_of_applyTranspose h0)
  rw [← h v, dotProduct_comm, L.apply_dotProduct]
  exact ExactField.dotProduct_self_pos hT

/-- The leading blocks of a positive definite matrix are positive definite. -/
theorem PositiveDefinite.of_le {S : ℕ → ℕ → K} {j : ℕ} (h : PositiveDefinite (symmetric S k))
    (hj : j ≤ k) : PositiveDefinite (symmetric S j) := by
  induction k, hj using Nat.le_induction with
  | base => exact h
  | succ k hj ih =>
    refine ih fun v hv => ?_
    have hne : extend v 0 ≠ 0 := by
      rw [← extend_zero, Ne, extend_inj]
      exact fun h0 => hv h0.1
    simpa [symmetric_mulVec_extend] using h _ hne

/-! ### The factorization -/

/-- A row solved by the factor of a block extends the factor if a pivot is left over for it. -/
theorem Triangle.Factors.border {L : Triangle K k} {S : ℕ → ℕ → K} {below : Fin k → K}
    (h : L.Factors (symmetric S k)) (hb : L.apply below = borderRow S k)
    (pos : 0 < S k k - below ⬝ᵥ below) :
    (Triangle.border L below (ExactField.sqrt (S k k - below ⬝ᵥ below))
      (ExactField.sqrt_pos pos)).Factors (symmetric S (k + 1)) := by
  intro v
  obtain ⟨v, a, rfl⟩ := exists_extend v
  have hroot : ExactField.sqrt (S k k - below ⬝ᵥ below) *
      ExactField.sqrt (S k k - below ⬝ᵥ below) = S k k - below ⬝ᵥ below :=
    ExactField.sqrt_mul_self _ pos.le
  have hrow : below ⬝ᵥ L.applyTranspose v = borderRow S k ⬝ᵥ v := by
    rw [← L.apply_dotProduct, hb]
  rw [Triangle.applyTranspose_border, Triangle.apply_border, symmetric_mulVec_extend, extend_inj,
    L.apply_add_smul, h v, hb, dotProduct_add, dotProduct_smul, hrow, ← mul_assoc, hroot,
    smul_eq_mul]
  exact ⟨rfl, by ring⟩

/-- If no positive pivot is left over for a row, the bordered block is not positive definite. -/
theorem Triangle.Factors.not_positiveDefinite {L : Triangle K k} {S : ℕ → ℕ → K}
    {below : Fin k → K} (h : L.Factors (symmetric S k)) (hb : L.apply below = borderRow S k)
    (hpivot : S k k - below ⬝ᵥ below ≤ 0) : ¬PositiveDefinite (symmetric S (k + 1)) := by
  intro hpos
  -- the form takes the pivot as its value where the solution of the block balances the border
  obtain ⟨u, -, hu⟩ := backward_rows L below []
  have hsolve : symmetric S k *ᵥ u = borderRow S k := by rw [← h u, hu, hb]
  have hself : u ⬝ᵥ borderRow S k = below ⬝ᵥ below := by
    rw [← hb, dotProduct_comm, L.apply_dotProduct, hu]
  have hne : extend (-u) 1 ≠ 0 := by
    rw [← extend_zero, Ne, extend_inj]
    exact fun h0 => one_ne_zero h0.2
  have hvalue : extend (-u) 1 ⬝ᵥ (symmetric S (k + 1) *ᵥ extend (-u) 1) =
      S k k - below ⬝ᵥ below := by
    rw [symmetric_mulVec_extend, extend_dotProduct_extend, mulVec_neg, hsolve, one_smul,
      neg_add_cancel, dotProduct_zero, dotProduct_neg, dotProduct_comm, hself]
    ring
  exact absurd (hvalue ▸ hpos _ hne) (not_lt.2 hpivot)

/-- What the factorization of the next block does after the factorization of a block. -/
theorem factor_border {S : ℕ → ℕ → K} {L : Triangle K k}
    (h : factor .exact S k = .ok L.rows) :
    ∃ below : Fin k → K, L.apply below = borderRow S k ∧
      factor .exact S (k + 1) =
        if S k k - below ⬝ᵥ below ≤ 0 then .error (k + 1)
        else .ok (L.rows ++ [⟨List.ofFn below, ExactField.sqrt (S k k - below ⬝ᵥ below)⟩]) := by
  have hlist : (List.range k).map (S k) = List.ofFn (borderRow S k) :=
    List.ext_getElem (by simp) fun i _ _ => by simp [borderRow]
  obtain ⟨below, hrow, hb⟩ := forward_rows L (borderRow S k)
  refine ⟨below, hb, ?_⟩
  rw [factor, h, ok_bind, hlist, hrow]
  simp only [inner_ofFn]
  by_cases hpivot : S k k - below ⬝ᵥ below ≤ 0
  · simp [Variant.exact, hpivot, throw, throwThe, MonadExceptOf.throw]
  · simp [Variant.exact, hpivot, pure, Except.pure]

/-- **What a factorization can end with**: a factor of the matrix, or the order of the smallest
leading block that is not positive definite. -/
theorem factor_cases (S : ℕ → ℕ → K) (k : ℕ) :
    (∃ L : Triangle K k, factor .exact S k = .ok L.rows ∧ L.Factors (symmetric S k)) ∨
    ∃ j, j < k ∧ factor .exact S k = .error (j + 1) ∧ PositiveDefinite (symmetric S j) ∧
      ¬PositiveDefinite (symmetric S (j + 1)) := by
  induction k with
  | zero => exact .inl ⟨.nil, rfl, fun v => funext fun i => i.elim0⟩
  | succ k ih =>
    -- A factor of the block is bordered if a pivot is left over; a failure stays.
    obtain ⟨L, hL, hfac⟩ | ⟨j, hj, herr, hpd, hnot⟩ := ih
    · obtain ⟨below, hb, hstep⟩ := factor_border hL
      by_cases hpivot : S k k - below ⬝ᵥ below ≤ 0
      · rw [if_pos hpivot] at hstep
        exact .inr ⟨k, by omega, hstep, hfac.positiveDefinite,
          hfac.not_positiveDefinite hb hpivot⟩
      · rw [if_neg hpivot] at hstep
        refine .inl ⟨_, ?_, hfac.border hb (not_le.1 hpivot)⟩
        exact hstep
    · refine .inr ⟨j, by omega, ?_, hpd, hnot⟩
      rw [factor, herr, error_bind]

/-- The rows of a successful factorization are those of a factor of the matrix. -/
theorem exists_triangle_of_factor {S : ℕ → ℕ → K} {rows : List (Row K)}
    (h : factor .exact S k = .ok rows) :
    ∃ L : Triangle K k, rows = L.rows ∧ L.Factors (symmetric S k) := by
  obtain ⟨L, hL, hfac⟩ | ⟨j, -, herr, -, -⟩ := factor_cases S k
  · rw [hL] at h
    cases h
    exact ⟨L, rfl, hfac⟩
  · rw [herr] at h
    cases h

/-- **A matrix is factored exactly if it is positive definite.** -/
theorem factor_eq_ok_iff (S : ℕ → ℕ → K) (k : ℕ) :
    (∃ rows, factor .exact S k = .ok rows) ↔ PositiveDefinite (symmetric S k) := by
  constructor
  · rintro ⟨rows, h⟩
    obtain ⟨L, -, hfac⟩ := exists_triangle_of_factor h
    exact hfac.positiveDefinite
  · intro hpd
    obtain ⟨L, hL, -⟩ | ⟨j, hj, -, -, hnot⟩ := factor_cases S k
    · exact ⟨_, hL⟩
    · exact absurd (hpd.of_le hj) hnot

/-- **A solve with the factor** solves the system of the factored matrix. -/
theorem solve_of_factor {S : ℕ → ℕ → K} {rows : List (Row K)}
    (h : factor .exact S k = .ok rows) (r : Fin k → K) :
    ∃ u, solve .exact rows (List.ofFn r) = List.ofFn u ∧ symmetric S k *ᵥ u = r := by
  obtain ⟨L, rfl, hfac⟩ := exists_triangle_of_factor h
  obtain ⟨w, hw, hL⟩ := forward_rows L r
  obtain ⟨u, hu, hT⟩ := backward_rows L w []
  refine ⟨u, ?_, ?_⟩
  · rw [solve, hw, hu, List.append_nil]
  · rw [← hfac u, hT, hL]

end SelfDual.Cholesky
