import SelfDual.Proofs.SaddlePoint
/-!
**When a matrix is factorized, and what a factorization is good for.**

A factorization reads the lower triangle of a square matrix, so it is a factorization of the
symmetric matrix with that triangle.  It succeeds exactly if this matrix is positive definite, and
then it solves every system of the matrix, as often as it is used.  Otherwise there is a smallest
leading block that is not positive definite, and the breakdown names its order.

Main definitions:

* `leadingBlock` — the leading block of a matrix;
* `FirstIndefinite` — the order of the smallest leading block that is not positive definite.

Main results:

* `Cholesky.PositiveDefinite.mulVec_injective` — a positive definite matrix is injective;
* `Factorization.Inverts.exists_mapM_solve` — **a sequence of right-hand sides** is solved one by
  one;
* `message_notPositiveDefinite` — the wording of the breakdown begins with the order it names;
* `exists_firstIndefinite` — a matrix that is not factorized breaks down at its first indefinite
  block;
* `factorize_iff_positiveDefinite` — **a matrix is factorized exactly if it is positive definite**.
-/

set_option autoImplicit false

open Matrix

namespace SelfDual

variable {K : Type} [ExactField K] {k : ℕ}

/-! ### Leading blocks -/

/-- The leading block of order `j` of a matrix. -/
def leadingBlock {α : Type} {j : ℕ} (M : Matrix (Fin k) (Fin k) α) (h : j ≤ k) :
    Matrix (Fin j) (Fin j) α :=
  M.submatrix (Fin.castLE h) (Fin.castLE h)

/-- The leading blocks of a matrix are the symmetric matrices that are factored on the way. -/
theorem symmetric_leadingBlock {j : ℕ} (M : Matrix (Fin k) (Fin k) K) (h : j ≤ k) :
    Cholesky.symmetric (fun i l => (Tensor.ofMatrix M).entry (i * k + l)) j =
      leadingBlock (symmetricLower M) h := by
  ext i l
  have hentry := Tensor.entry_ofMatrix M (max (Fin.castLE h i) (Fin.castLE h l))
    (min (Fin.castLE h i) (Fin.castLE h l))
  simpa [Cholesky.symmetric, leadingBlock, symmetricLower] using hentry

/-- The leading block of order `order` is the smallest that is not positive definite. -/
def FirstIndefinite (M : Matrix (Fin k) (Fin k) K) (order : ℕ) : Prop :=
  IsLeast {j | ∃ h : j ≤ k, ¬Cholesky.PositiveDefinite (leadingBlock M h)} order

/-! ### Solutions -/

/-- **A positive definite matrix is injective.** -/
theorem Cholesky.PositiveDefinite.mulVec_injective {M : Matrix (Fin k) (Fin k) K}
    (h : PositiveDefinite M) : Function.Injective (M *ᵥ ·) := by
  intro u v huv
  by_contra hne
  have hzero : M *ᵥ (u - v) = 0 := by
    rw [mulVec_sub, sub_eq_zero]
    exact huv
  have hpos : 0 < (u - v) ⬝ᵥ (M *ᵥ (u - v)) := h _ (sub_ne_zero.2 hne)
  rw [hzero, dotProduct_zero] at hpos
  exact hpos.false

namespace Factorization.Inverts

variable {f : Factorization K} {M : Matrix (Fin k) (Fin k) K}

/-- The solution for a right-hand side is the only one. -/
theorem exists_solve (hf : f.Inverts M) (hM : Cholesky.PositiveDefinite M) (r : Fin k → K) :
    ∃ v, f.solve (.ofVector r) = .ok (.ofVector v) ∧ ∀ v', M *ᵥ v' = r ↔ v' = v := by
  obtain ⟨v, hv, hr⟩ := hf r
  refine ⟨v, hv, fun v' => ⟨fun hv' => hM.mulVec_injective (hv'.trans hr.symm), ?_⟩⟩
  rintro rfl
  exact hr

/-- **A sequence of right-hand sides** is solved one by one. -/
theorem exists_mapM_solve (hf : f.Inverts M) (hM : Cholesky.PositiveDefinite M)
    (rs : List (Fin k → K)) :
    ∃ vs : List (Fin k → K), (rs.map Tensor.ofVector).mapM f.solve = .ok (vs.map .ofVector) ∧
      List.Forall₂ (fun r v => ∀ v', M *ᵥ v' = r ↔ v' = v) rs vs := by
  induction rs with
  | nil => exact ⟨[], rfl, .nil⟩
  | cons r rs ih =>
    obtain ⟨v, hv, hunique⟩ := hf.exists_solve hM r
    obtain ⟨vs, hvs, hall⟩ := ih
    refine ⟨v :: vs, ?_, .cons hunique hall⟩
    rw [List.map_cons, List.mapM_cons, hv, ok_bind, hvs, ok_bind]
    rfl

end Factorization.Inverts

/-! ### The factorization -/

/-- The wording of the breakdown begins with the order. -/
theorem message_notPositiveDefinite (backend : Backend) (order : ℕ) :
    ∃ rest, (Breakdown.notPositiveDefinite backend order).message =
      toString order ++ "-th leading minor" ++ rest := by
  cases backend with
  | host =>
    refine ⟨" of the array is not positive definite", ?_⟩
    rw [String.append_assoc]
    rfl
  | device =>
    refine ⟨" not positive definite", ?_⟩
    rw [String.append_assoc]
    rfl

/-- **A matrix that is not positive definite** breaks down at its first indefinite block. -/
theorem exists_firstIndefinite (backend : Backend) {M : Matrix (Fin k) (Fin k) K}
    (hM : ¬Cholesky.PositiveDefinite (symmetricLower M)) :
    ∃ order, FirstIndefinite (symmetricLower M) order ∧ factorize backend (.ofMatrix M) =
      .error (.breakdown (.notPositiveDefinite backend order)) := by
  have hk : k ≠ 0 := by
    rintro rfl
    exact hM fun v hv => absurd (funext fun i => i.elim0) hv
  obtain ⟨L, -, hL⟩ | ⟨j, hj, herr, hpd, hnot⟩ :=
    Cholesky.factor_cases (fun i l => (Tensor.ofMatrix M).entry (i * k + l)) k
  · rw [symmetric_entries] at hL
    exact absurd hL.positiveDefinite hM
  refine ⟨j + 1, ⟨⟨hj, ?_⟩, ?_⟩, ?_⟩
  · rwa [symmetric_leadingBlock] at hnot
  · -- A block of a smaller order is a leading block of a positive definite one.
    rintro i ⟨hi, hindefinite⟩
    rw [← symmetric_leadingBlock] at hindefinite
    by_contra hlt
    exact hindefinite (hpd.of_le (by omega))
  · rw [factorize_exact backend M hk, herr]

/-- **A matrix is factorized exactly if the symmetric matrix with its lower triangle is positive
definite**, by either backend.  Then any right-hand sides, one after the other, are solved by the
only solutions there are; otherwise the breakdown names the order of the smallest leading block
that is not positive definite. -/
theorem factorize_iff_positiveDefinite (backend : Backend) (M : Matrix (Fin k) (Fin k) K) :
    ((∃ f, factorize backend (.ofMatrix M) = .ok f) ↔
      Cholesky.PositiveDefinite (symmetricLower M)) ∧
    (∀ f, factorize backend (.ofMatrix M) = .ok f → ∀ rs : List (Fin k → K),
      ∃ vs : List (Fin k → K), (rs.map Tensor.ofVector).mapM f.solve = .ok (vs.map .ofVector) ∧
        List.Forall₂ (fun r v => ∀ v', symmetricLower M *ᵥ v' = r ↔ v' = v) rs vs) ∧
    (¬Cholesky.PositiveDefinite (symmetricLower M) →
      ∃ order, FirstIndefinite (symmetricLower M) order ∧
        factorize backend (.ofMatrix M) =
          .error (.breakdown (.notPositiveDefinite backend order)) ∧
        (Breakdown.notPositiveDefinite backend order).kind = "LinAlgError" ∧
        ∃ rest, (Breakdown.notPositiveDefinite backend order).message =
          toString order ++ "-th leading minor" ++ rest) := by
  rcases factorize_cases backend M with ⟨f, hf, hinverts, hpd⟩ | ⟨order, herr, hnot⟩
  · refine ⟨⟨fun _ => hpd, fun _ => ⟨f, hf⟩⟩, fun f' hf' => ?_, fun hnot => absurd hpd hnot⟩
    obtain rfl := Except.ok.inj (hf.symm.trans hf')
    exact hinverts.exists_mapM_solve hpd
  · refine ⟨⟨?_, fun hpd => absurd hpd hnot⟩, fun f hf => ?_, fun _ => ?_⟩
    · rintro ⟨f, hf⟩
      cases herr.symm.trans hf
    · cases herr.symm.trans hf
    · obtain ⟨j, hfirst, hbreak⟩ := exists_firstIndefinite backend hnot
      exact ⟨j, hfirst, hbreak, rfl, message_notPositiveDefinite backend j⟩

/-- An upper shear has the lower triangle of the identity and is factorized; a lower shear has that
of an indefinite matrix and is not. -/
theorem factorize_iff_positiveDefinite_shear :
    (∃ f, factorize .host (.ofMatrix (!![1, 2; 0, 1] : Matrix (Fin 2) (Fin 2) ℝ)) = .ok f) ∧
      ∃ b : Breakdown, factorize .device (.ofMatrix (!![1, 0; 2, 1] : Matrix (Fin 2) (Fin 2) ℝ)) =
        .error (.breakdown b) ∧ b.kind = "LinAlgError" := by
  have hupper : Cholesky.PositiveDefinite
      (symmetricLower (!![1, 2; 0, 1] : Matrix (Fin 2) (Fin 2) ℝ)) := by
    have hone : symmetricLower (!![1, 2; 0, 1] : Matrix (Fin 2) (Fin 2) ℝ) = 1 := by
      ext i j
      fin_cases i <;> fin_cases j <;> simp [symmetricLower]
    intro v hv
    rw [hone, one_mulVec]
    exact ExactField.dotProduct_self_pos hv
  have hlower : ¬Cholesky.PositiveDefinite
      (symmetricLower (!![1, 0; 2, 1] : Matrix (Fin 2) (Fin 2) ℝ)) := by
    intro hpd
    have hform := hpd ![1, -1] fun h0 => one_ne_zero (congrFun h0 0)
    norm_num [symmetricLower, mulVec, dotProduct, Fin.sum_univ_two] at hform
  obtain ⟨order, -, hbreak, hkind, -⟩ := (factorize_iff_positiveDefinite .device _).2.2 hlower
  exact ⟨(factorize_iff_positiveDefinite .host _).1.2 hupper, _, hbreak, hkind⟩

end SelfDual
