import SelfDual.Proofs.OptimalityTest
import SelfDual.Proofs.Totality
/-!
**Residuals measured twice.**

A solve measures the residuals of the solution that it returns, and the optimality test measures
them again from the data and the solution.  Both do the same operations on the same tensors, so the
two agree for any scalars, rounding included.  The one difference lies in how the data are read:
a program without constraints may be given with an empty list for its matrix, which a solve takes
for a matrix without rows.  The test takes it for a vector, and its product with the solution fails.

Main definitions:

* `Scalar.Exact` — the scalars are those of an exact reading.

Main results:

* `exists_optimalityGaps_of_shapes` — **tensors that fit a program have gaps**, with the norms of
  their residuals among them;
* `nonnegativity_of_result` — in exact arithmetic the signs are met;
* `optimalityGaps_of_accepted` — **when the residuals of a result and its gaps agree**: always but
  for a matrix given as an empty list.
-/

set_option autoImplicit false

namespace SelfDual

variable {R : Type} [Scalar R] {p : Problem R}

/-! ### Gaps for any scalars -/

/-- **Tensors that fit a program have gaps**, with the norms of their residuals among them. -/
theorem exists_optimalityGaps_of_shapes {x y z primal dual : Tensor R} {normPrimal normDual : R}
    (hx : x.shape = [p.n]) (hy : y.shape = [p.m]) (hz : z.shape = [p.n])
    (hprimal : primalResidual p.A x p.b = .ok primal)
    (hdual : dualResidual p.c p.A y z = .ok dual)
    (hnormPrimal : maxNormOrZero primal = .ok normPrimal)
    (hnormDual : dual.maxNorm = .ok normDual) :
    ∃ g, optimalityGaps p.c p.A p.b x y z = .ok g ∧ g.primal = normPrimal ∧ g.dual = normDual := by
  have hnegative : Yields .off (fun _ : R => True)
      (Tensor.ofList ((x.toList ++ z.toList).map negativePart)).maxNorm := by
    refine Tensor.yields_maxNorm (Tensor.shape_ofList _) ?_
    have hne : x.toList ≠ [] := Tensor.toList_ne_nil (by simpa [hx] using p.n_pos)
    have hpos : 0 < x.toList.length := List.length_pos_iff.2 hne
    rw [List.length_map, List.length_append]
    omega
  have hproduct : Yields .off (fun t : Tensor R => t.shape = [p.n]) (Tensor.mul .off x z) :=
    Tensor.yields_same hx hz
  obtain ⟨negative, hnegative, -⟩ := hnegative.exists_ok
  obtain ⟨product, hproduct, hshape⟩ := hproduct.exists_ok
  have hgreatest : Yields .off (fun _ : R => True) product.abs.maximum :=
    Tensor.yields_maximum (by simpa [Tensor.abs, hshape] using p.n_pos)
  have hcost : Yields .off (fun _ : R => True) (Tensor.dot .off p.c x) :=
    Tensor.yields_dot p.shape_c hx
  have htarget : Yields .off (fun _ : R => True) (Tensor.dot .off p.b y) :=
    Tensor.yields_dot p.shape_b hy
  obtain ⟨greatest, hgreatest, -⟩ := hgreatest.exists_ok
  obtain ⟨cost, hcost, -⟩ := hcost.exists_ok
  obtain ⟨target, htarget, -⟩ := htarget.exists_ok
  have hdifference : Traps.off.combine .subtract cost target =
      .ok (Operation.eval .subtract cost target) := rfl
  refine ⟨⟨normPrimal, normDual, negative, greatest,
    Scalar.abs (Operation.eval .subtract cost target)⟩, ?_, rfl, rfl⟩
  simp [-List.map_append, optimalityGaps, Tensor.flatten_of_shape hx, Tensor.flatten_of_shape hy,
    Tensor.flatten_of_shape hz, Tensor.flatten_of_shape p.shape_c,
    Tensor.flatten_of_shape p.shape_b, hprimal, hdual, hnormPrimal, hnormDual, hnegative, hproduct,
    hgreatest, hcost, htarget, hdifference, pure, Except.pure]

/-! ### Results -/

variable {o : Options R} {callback : Option (Callback R)} {clock : ℕ → R} {r : Result R}

/-- The gaps at a result have the norms of its residuals among them. -/
theorem exists_optimalityGaps_of_result (hr : (solve p o callback clock).result = .ok r) :
    ∃ g, optimalityGaps p.c p.A p.b r.x r.y r.z = .ok g ∧ g.primal = r.primalResidual ∧
      g.dual = r.dualResidual := by
  obtain ⟨hx, hy, hz⟩ := shapes_of_result hr
  obtain ⟨s, stop, -, hresult⟩ := exists_fits_of_result hr
  obtain ⟨x, y, z, primal, dual, normPrimal, normDual, -, -, -, hprimal, hdual, hnormPrimal,
    hnormDual, rfl⟩ := Progress.exists_of_result hresult
  exact exists_optimalityGaps_of_shapes hx hy hz hprimal hdual hnormPrimal hnormDual

/-- The scalars are exact. -/
def Scalar.Exact (R : Type) [inst : Scalar R] : Prop :=
  ∃ field : ExactField R, inst = field.instScalar

/-- A result in exact arithmetic has no negative entries, so the gap of the signs vanishes. -/
theorem nonnegativity_of_result {K : Type} [ExactField K] {p : Problem K} {o : Options K}
    {callback : Option (Callback K)} {clock : ℕ → K} {r : Result K} {g : OptimalityGaps K}
    (hr : (solve p o callback clock).result = .ok r)
    (hg : optimalityGaps p.c p.A p.b r.x r.y r.z = .ok g) : g.nonnegativity = 0 := by
  obtain ⟨s, answer, w, hends⟩ := exists_solveEnds p o callback clock
  obtain ⟨stop, primal, dual, -, rfl⟩ := hends.exists_of_result hr
  obtain ⟨g', hg', hmeasures⟩ := exists_optimalityGaps p.matrix p.cost
    (snapped o.tol (w.tau⁻¹ • w.x)) (w.tau⁻¹ • w.z) p.target (w.tau⁻¹ • w.y) p.n_pos
  rw [← p.A_eq, ← p.b_eq, ← p.c_eq, ← snap_vector] at hg'
  obtain rfl := Except.ok.inj (hg'.symm.trans hg)
  have htau : 0 ≤ w.tau⁻¹ := inv_nonneg.2 hends.onPath.tau_pos.le
  refine hmeasures.nonnegativity_eq_zero (snapped_nonneg _ o.tol_pos.le) (fun i => ?_) p.n_pos
  exact mul_nonneg htau (hends.onPath.nonneg.z i)

/-! ### A matrix given as an empty list -/

/-- The empty list is the one nested list whose tensor has a single axis without entries. -/
theorem Tensor.shape_ofValue_eq_iff {v : Value} {t : Tensor Float} (h : Tensor.ofValue v = .ok t) :
    t.shape = [0] ↔ v = .list [] := by
  constructor
  · intro hshape
    exact (Value.spells_iff_of_empty hshape).1 (ofValue_eq_ok_iff.1 h).1
  · rintro rfl
    have hempty : ofValue (.list []) = .ok ⟨[0], #[], rfl⟩ := rfl
    cases h.symm.trans hempty
    rfl

/-- At a result there are no gaps for a matrix given as an empty list: the test takes it for a
vector without entries, and its product with the solution fails. -/
theorem optimalityGaps_of_empty {c A b : Tensor R}
    (hr : (solve p o callback clock).result = .ok r) (hA : A.shape = [0]) :
    optimalityGaps c A b r.x r.y r.z = .error .shapesDiffer := by
  obtain ⟨hx, -, -⟩ := shapes_of_result hr
  have hshapes : Tensor.Contraction.ofShapes? A.shape r.x.flatten.shape = none := by
    rw [hA, Tensor.flatten_of_shape hx, hx]
    exact if_neg p.n_pos.ne
  rw [optimalityGaps, primalResidual, Tensor.matMul, hshapes]
  rfl

/-! ### Agreement -/

/-- **When the residuals of a result and its gaps agree**, for all data that are accepted and any
scalars, rounding included: the gaps at the result are computed, with the norms of the two residuals
that the result has, unless the matrix has been given as an empty list, which a solve takes for a
matrix without rows.  No other nested list has its shape.  In exact arithmetic the signs are met. -/
theorem optimalityGaps_of_accepted {c A b : Tensor R} (haccept : Problem.accept c A b = .ok p)
    (hr : (solve p o callback clock).result = .ok r) :
    ((∃ g, optimalityGaps c A b r.x r.y r.z = .ok g ∧ g.primal = r.primalResidual ∧
      g.dual = r.dualResidual) ↔ A.shape ≠ [0]) ∧
    (∀ v t, Tensor.ofValue v = .ok t → (t.shape = [0] ↔ v = .list [])) ∧
    (Scalar.Exact R → ∀ g, optimalityGaps c A b r.x r.y r.z = .ok g → g.nonnegativity = 0) := by
  obtain ⟨rfl, hA, rfl⟩ := Problem.fields_of_accept haccept
  have hempty : A.shape = [0] → ∀ g, optimalityGaps p.c A p.b r.x r.y r.z ≠ .ok g := by
    intro hshape g hg
    rw [optimalityGaps_of_empty hr hshape] at hg
    cases hg
  refine ⟨⟨?_, ?_⟩, fun v t => Tensor.shape_ofValue_eq_iff, ?_⟩
  · rintro ⟨g, hg, -⟩ hshape
    exact hempty hshape g hg
  · intro hshape
    have hsame : p.A = A := hA.trans (if_neg hshape)
    rw [← hsame]
    exact exists_optimalityGaps_of_result hr
  · rintro ⟨_, rfl⟩ g hg
    by_cases hshape : A.shape = [0]
    · exact absurd hg (hempty hshape g)
    · have hsame : p.A = A := hA.trans (if_neg hshape)
      rw [← hsame] at hg
      exact nonnegativity_of_result hr hg

/-- The identity is solved, and the gaps at its result are those that the result reports. -/
theorem optimalityGaps_of_accepted_identityProgram :
    ∃ r g, (solve (identityProgram : Problem ℝ) longStep none fun _ => 0).result = .ok r ∧
      optimalityGaps (identityProgram : Problem ℝ).c (identityProgram : Problem ℝ).A
        (identityProgram : Problem ℝ).b r.x r.y r.z = .ok g ∧
      g.primal = r.primalResidual ∧ g.dual = r.dualResidual ∧ g.nonnegativity = 0 := by
  obtain ⟨r, hr, -⟩ := decidedAt_identityProgram
  have hshape : (identityProgram : Problem ℝ).A.shape ≠ [0] := by
    rw [(identityProgram : Problem ℝ).shape_A]
    simp
  obtain ⟨hagrees, -, hsigns⟩ :=
    optimalityGaps_of_accepted (identityProgram : Problem ℝ).accept_data hr
  obtain ⟨g, hg, hprimal, hdual⟩ := hagrees.2 hshape
  exact ⟨r, g, hr, hg, hprimal, hdual, hsigns ⟨_, rfl⟩ g hg⟩

/-- One variable without constraints, the matrix given as an empty list, is accepted and solved, but
has no gaps at its result. -/
theorem no_gaps_without_constraints :
    ∃ (p : Problem ℝ) (r : Result ℝ),
      Problem.accept (.full [1] 1) (.full [0] 0) (.full [0] 0) = .ok p ∧
      (solve p halfStep none fun _ => 0).result = .ok r ∧
      ¬∃ g, optimalityGaps (.full [1] 1) (.full [0] 0) (.full [0] 0) r.x r.y r.z = .ok g := by
  obtain ⟨p, haccept⟩ : ∃ p : Problem ℝ,
      Problem.accept (.full [1] 1) (.full [0] 0) (.full [0] 0) = .ok p :=
    Problem.exists_accept Nat.one_pos rfl rfl rfl (Tensor.isFinite_exact _)
      (Tensor.isFinite_exact _) (Tensor.isFinite_exact _)
  rcases Run.result_or_refused (Run.start_standard p halfStep none fun _ => 0)
    (Run.kernels_standard p halfStep none fun _ => 0) with ⟨r, hr⟩ | ⟨_, _, _, hcallback, -⟩
  swap
  · cases hcallback
  refine ⟨p, r, haccept, hr, ?_⟩
  rintro ⟨g, hg⟩
  rw [optimalityGaps_of_empty hr rfl] at hg
  cases hg

end SelfDual
