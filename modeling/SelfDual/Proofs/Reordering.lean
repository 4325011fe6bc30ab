import SelfDual.Proofs.Determinacy
/-!
**Programs with variables and constraints in another order.**

Nothing that the method computes depends on the order of the variables or on that of the
constraints.  The equations of an iteration are the same equations in another order, the ratio test
has the same ratios, and sums are the same sums.  That elimination and factorization take the
constraints in another order, and meet other pivots, does not matter where the equations have one
solution only.

Main definitions:

* `Problem.Reorders` — two programs with the same data in another order;
* `Point.reorder` — a point with its coordinates in another order.

Main results:

* `RatioStep.of_comp`, `stepLength_reorder` — the ratio test;
* `Problem.Reorders.newton`, `Problem.Reorders.regular`, `Problem.Reorders.independent` — the
  equations and what makes their solution unique;
* `Problem.Reorders.directionAt`, `Problem.Reorders.advanceAt` — directions and iterations;
* `Problem.Reorders.advance_ok`, `Problem.Reorders.advance_error` — **an iteration of the one
  program is accepted exactly if that of the other one is**, and leads to the same point.
-/

set_option autoImplicit false

open Matrix

namespace SelfDual

variable {K : Type} [ExactField K] {m n m' n' : ℕ}

/-! ### Programs and points -/

/-- **Two programs with the same data**, except that the constraints and the variables of the second
one are numbered differently. -/
structure Problem.Reorders (p p' : Problem K) (rows : Fin p'.m ≃ Fin p.m)
    (cols : Fin p'.n ≃ Fin p.n) : Prop where
  matrix : p'.matrix = p.matrix.submatrix rows cols
  cost : p'.cost = p.cost ∘ cols
  target : p'.target = p.target ∘ rows

namespace Point

/-- The point with its coordinates in another order. -/
def reorder (rows : Fin m' ≃ Fin m) (cols : Fin n' ≃ Fin n) (w : Point K m n) : Point K m' n' where
  x := w.x ∘ cols
  y := w.y ∘ rows
  z := w.z ∘ cols
  tau := w.tau
  kappa := w.kappa

/-- The order can be restored. -/
@[simp] theorem reorder_symm {α : Type} (rows : Fin m' ≃ Fin m) (cols : Fin n' ≃ Fin n)
    (w : Point α m n) : (w.reorder rows cols).reorder rows.symm cols.symm = w := by
  ext i <;> simp [reorder]

theorem reorder_injective {α : Type} (rows : Fin m' ≃ Fin m) (cols : Fin n' ≃ Fin n) :
    Function.Injective (reorder rows cols : Point α m n → Point α m' n') :=
  Function.LeftInverse.injective (reorder_symm rows cols)

variable {rows : Fin m' ≃ Fin m} {cols : Fin n' ≃ Fin n} {w d : Point K m n}

theorem reorder_move (alpha : K) : (w.move d alpha).reorder rows cols =
    (w.reorder rows cols).move (d.reorder rows cols) alpha := rfl

theorem reorder_blindStart (rows : Fin m' ≃ Fin m) (cols : Fin n' ≃ Fin n) :
    (blindStart m n : Point K m n).reorder rows cols = blindStart m' n' := rfl

theorem reorder_products (w : Point K m n) : (w.reorder rows cols).products = w.products := by
  rw [products, products, reorder]
  dsimp only
  rw [comp_equiv_dotProduct_comp_equiv]

theorem reorder_mu (w : Point K m n) : (w.reorder rows cols).mu = w.mu := by
  have hn : n' = n := Fin.equiv_iff_eq.1 ⟨cols⟩
  rw [mu, mu, reorder_products, hn]

theorem Nonneg.reorder (h : w.Nonneg) : (w.reorder rows cols).Nonneg where
  x i := h.x (cols i)
  z i := h.z (cols i)
  tau := h.tau
  kappa := h.kappa

theorem Interior.reorder (h : w.Interior) : (w.reorder rows cols).Interior where
  x i := h.x (cols i)
  z i := h.z (cols i)
  tau := h.tau
  kappa := h.kappa

end Point

/-! ### The ratio test -/

/-- A family of coordinates that has all coordinates of another one allows no other step. -/
theorem RatioStep.of_comp {ι κ : Type} {v dv : ι → K} {alpha0 r : K} {f : κ → ι}
    (hf : Function.Surjective f) (h : RatioStep (v ∘ f) (dv ∘ f) alpha0 r) :
    RatioStep v dv alpha0 r := by
  cases h with
  | free increases eq => exact .free (hf.forall.2 increases) eq
  | blocked i decreases eq least => exact .blocked (f i) decreases eq (hf.forall.2 least)

theorem blockStep_comp (traps : Traps) (e : Fin n' ≃ Fin n) (v dv : Fin n → K) (alpha0 : K) :
    blockStep traps (.ofVector (v ∘ e)) (.ofVector (dv ∘ e)) alpha0 =
      blockStep traps (.ofVector v) (.ofVector dv) alpha0 := by
  obtain ⟨r, hr, hstep⟩ := blockStep_exact traps v dv alpha0
  obtain ⟨r', hr', hstep'⟩ := blockStep_exact traps (v ∘ e) (dv ∘ e) alpha0
  rw [hr, hr', (hstep'.of_comp e.surjective).unique hstep]

/-- The step does not depend on the order of the coordinates. -/
theorem stepLength_reorder (traps : Traps) (rows : Fin m' ≃ Fin m) (cols : Fin n' ≃ Fin n)
    (w d : Point K m n) (alpha0 : K) :
    stepLength traps (w.reorder rows cols).iterate (d.reorder rows cols).direction alpha0 =
      stepLength traps w.iterate d.direction alpha0 := by
  simp [stepLength, Point.reorder, blockStep_comp]

/-- The norm does not depend on the order of the coordinates. -/
theorem ExactField.norm_comp (e : Fin n' ≃ Fin n) (v : Fin n → K) : norm (v ∘ e) = norm v := by
  rw [norm, norm, comp_equiv_dotProduct_comp_equiv]

namespace Problem.Reorders

variable {p p' : Problem K} {rows : Fin p'.m ≃ Fin p.m} {cols : Fin p'.n ≃ Fin p.n}
  {w d pred : Point K p.m p.n} {o : Options K} {gamma beta alpha : K}

/-! ### Residuals and indicators -/

/-- The one program is the other one in another order. -/
theorem symm (h : p.Reorders p' rows cols) : p'.Reorders p rows.symm cols.symm where
  matrix := by
    ext i j
    simp [h.matrix]
  cost := by
    funext j
    simp [h.cost]
  target := by
    funext i
    simp [h.target]

variable (h : p.Reorders p' rows cols)

include h

theorem mulVec_comp (x : Fin p.n → K) : p'.matrix *ᵥ (x ∘ cols) = (p.matrix *ᵥ x) ∘ rows := by
  have hx : (x ∘ cols) ∘ cols.symm = x := by
    funext j
    simp
  rw [h.matrix, submatrix_mulVec_equiv, hx]

theorem transpose_mulVec_comp (y : Fin p.m → K) :
    p'.matrixᵀ *ᵥ (y ∘ rows) = (p.matrixᵀ *ᵥ y) ∘ cols := by
  have hy : (y ∘ rows) ∘ rows.symm = y := by
    funext i
    simp
  rw [h.matrix, transpose_submatrix, submatrix_mulVec_equiv, hy]

theorem cost_dotProduct (x : Fin p.n → K) : p'.cost ⬝ᵥ (x ∘ cols) = p.cost ⬝ᵥ x := by
  rw [h.cost, comp_equiv_dotProduct_comp_equiv]

theorem target_dotProduct (y : Fin p.m → K) : p'.target ⬝ᵥ (y ∘ rows) = p.target ⬝ᵥ y := by
  rw [h.target, comp_equiv_dotProduct_comp_equiv]

theorem primal (w : Point K p.m p.n) :
    (w.reorder rows cols).primal p' = w.primal p ∘ rows := by
  rw [Point.primal, Point.reorder]
  dsimp only
  rw [h.mulVec_comp, h.target]
  rfl

theorem dual (w : Point K p.m p.n) : (w.reorder rows cols).dual p' = w.dual p ∘ cols := by
  rw [Point.dual, Point.reorder]
  dsimp only
  rw [h.transpose_mulVec_comp, h.cost]
  rfl

theorem gap (w : Point K p.m p.n) : (w.reorder rows cols).gap p' = w.gap p := by
  rw [Point.gap, Point.reorder]
  dsimp only
  rw [h.cost_dotProduct, h.target_dotProduct]
  rfl

/-- The indicators are the same. -/
theorem indicators (w : Point K p.m p.n) :
    (w.reorder rows cols).indicators p' = w.indicators p := by
  have hstart := Point.reorder_blindStart (K := K) rows cols
  have hobj : p'.cost ⬝ᵥ (w.tau⁻¹ • (w.x ∘ cols)) = p.cost ⬝ᵥ (w.tau⁻¹ • w.x) :=
    h.cost_dotProduct (w.tau⁻¹ • w.x)
  rw [Point.indicators, Point.indicators, ← hstart, h.primal, h.primal, h.dual, h.dual, h.gap,
    h.gap, Point.reorder_mu, ExactField.norm_comp, ExactField.norm_comp, ExactField.norm_comp,
    ExactField.norm_comp]
  simp only [Point.reorder, h.cost_dotProduct, h.target_dotProduct, hobj]

/-! ### The equations -/

/-- The Newton equations are the same equations in another order. -/
theorem newton {r_xz : Fin p.n → K} {r_tk : K} (hd : IsNewtonStep p w gamma r_xz r_tk d) :
    IsNewtonStep p' (w.reorder rows cols) gamma (r_xz ∘ cols) r_tk (d.reorder rows cols) where
  primal := by
    rw [h.primal, Point.reorder]
    dsimp only
    rw [h.mulVec_comp, h.target]
    exact congrArg (· ∘ rows) hd.primal
  dual := by
    rw [h.dual, Point.reorder]
    dsimp only
    rw [h.transpose_mulVec_comp, h.cost]
    exact congrArg (· ∘ cols) hd.dual
  gap := by
    rw [h.gap, Point.reorder]
    dsimp only
    rw [h.cost_dotProduct, h.target_dotProduct]
    exact hd.gap
  products i := hd.products (cols i)
  number := hd.number

/-- A regular point is regular in another order. -/
theorem regular (hw : w.Regular p) : (w.reorder rows cols).Regular p' := by
  intro gamma r_xz r_tk d d' hd hd'
  have hback := h.symm.newton hd
  have hback' := h.symm.newton hd'
  rw [Point.reorder_symm] at hback hback'
  exact Point.reorder_injective _ _ (hw _ _ _ _ _ hback hback')

/-- Independent rows are independent in another order. -/
theorem independent (hrows : LinearIndependent K p.matrix.row) :
    LinearIndependent K p'.matrix.row := by
  rw [independent_rows_iff] at hrows ⊢
  intro v hv
  have hback : p.matrixᵀ *ᵥ (v ∘ rows.symm) = 0 := by
    rw [h.symm.transpose_mulVec_comp, hv]
    rfl
  have hzero := hrows _ hback
  funext i
  simpa using congrFun hzero (rows i)

/-! ### Directions and iterations -/

/-- A search direction is one in another order. -/
theorem directionAt (hd : DirectionAt p w beta pred alpha d) :
    DirectionAt p' (w.reorder rows cols) beta (pred.reorder rows cols) alpha
      (d.reorder rows cols) where
  interior := hd.interior.reorder
  independent := h.independent hd.independent
  regular := h.regular hd.regular
  predictor := h.newton hd.predictor
  step := (stepLength_reorder .on rows cols w pred 1).trans hd.step
  corrector := by
    have hproducts : (w.reorder rows cols).correctedProducts (pred.reorder rows cols)
        (centering beta alpha) = w.correctedProducts pred (centering beta alpha) ∘ cols := by
      funext i
      rw [Point.correctedProducts, Point.reorder_mu]
      rfl
    have hnumber : (w.reorder rows cols).correctedNumber (pred.reorder rows cols)
        (centering beta alpha) = w.correctedNumber pred (centering beta alpha) := by
      rw [Point.correctedNumber, Point.reorder_mu]
      rfl
    rw [hproducts, hnumber]
    exact h.newton hd.corrector

/-- An accepted iteration is one in another order. -/
theorem advanceAt (hd : AdvanceAt p o w d alpha) :
    AdvanceAt p' o (w.reorder rows cols) (d.reorder rows cols) alpha where
  direction := by
    obtain ⟨pred, alpha', hdirection⟩ := hd.direction
    exact ⟨pred.reorder rows cols, alpha', h.directionAt hdirection⟩
  step := (stepLength_reorder .on rows cols w d o.alpha0).trans hd.step
  tau_pos := hd.tau_pos

/-- **An iteration that is accepted is accepted in another order**, with the same step and the same
indicators, and leads to the same point. -/
theorem advance_ok (hw : w.Nonneg) {a : Advance K}
    (ha : (Kernels.standard p o).advance w.iterate = .ok a) :
    ∃ w₁ : Point K p.m p.n, a.point = w₁.iterate ∧
      (Kernels.standard p' o).advance (w.reorder rows cols).iterate =
        .ok ⟨a.alpha, (w₁.reorder rows cols).iterate, a.indicators⟩ := by
  obtain ⟨d, alpha, hd, rfl⟩ := (advance_eq_ok_iff hw).1 ha
  refine ⟨w.move d alpha, rfl, (advance_eq_ok_iff hw.reorder).2 ?_⟩
  refine ⟨d.reorder rows cols, alpha, h.advanceAt hd, ?_⟩
  rw [← Point.reorder_move, h.indicators]

/-- **An iteration that breaks down breaks down in another order.** -/
theorem advance_error (hw : w.Nonneg) {e : Error}
    (he : (Kernels.standard p o).advance w.iterate = .error e) :
    ∃ b, (Kernels.standard p' o).advance (w.reorder rows cols).iterate =
      .error (.breakdown b) := by
  rcases advanceAt_cases p' o hw.reorder with ⟨d, alpha, -, hd⟩ | ⟨hb, -⟩
  · have hback := h.symm.advanceAt hd
    rw [Point.reorder_symm] at hback
    have hok := (advance_eq_ok_iff hw).2 ⟨_, _, hback, rfl⟩
    cases he.symm.trans hok
  · exact hb

end Problem.Reorders

end SelfDual
