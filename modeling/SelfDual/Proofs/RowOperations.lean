import SelfDual.Proofs.Passes
import SelfDual.Proofs.Totality
/-!
**Constraints scaled and combined.**

Constraints can be scaled, and multiples of one can be added to another, without changing what they
say.  Such row operations multiply the constraint matrix and the right-hand side by an invertible
matrix `Q`; the multipliers `y` of the old constraints become those of the new ones under the
inverse transpose of `Q`.  The normal matrix, its pivots and all that is solved for with it are
different then, but the Newton equations say the same.  Since they have one solution only, the
method takes the same steps, and `x`, `z`, `tau` and `kappa` are the same all along the path.

Main definitions:

* `Problem.combine` — the program with its constraints combined;
* `Point.combine` — a point with the multipliers of the combined constraints;
* `Advance.Combines` — two iterations that differ so.

Main results:

* `Point.primal_combine`, `Point.dual_combine`, `Point.gap_combine` — the residuals;
* `isNewtonStep_combine_iff`, `Point.Regular.combine`, `Problem.independent_combine` — **the
  equations of the two programs say the same**, and what makes their solution unique;
* `DirectionAt.combine`, `AdvanceAt.combine` — directions and iterations;
* `Kernels.Path.combine` — **a path of the one program is a path of the other one**;
* `searchDirection_combine` — **directions, paths and solves of the two programs**.
-/

set_option autoImplicit false

open Matrix

namespace SelfDual

variable {K : Type} [ExactField K] {m n : ℕ}

/-! ### Programs and points -/

namespace Problem

/-- **The program with its constraints combined** by an invertible matrix.  It is reducible, since
its points are those of the program. -/
@[reducible]
def combine (p : Problem K) (Q : (Matrix (Fin p.m) (Fin p.m) K)ˣ) : Problem K :=
  { p with
    A := .ofMatrix (Q.val * p.matrix)
    b := .ofVector (Q.val *ᵥ p.target)
    n_pos := Nat.succ_le_of_lt p.n_pos
    shape_A := rfl
    shape_b := rfl
    finite_A := Tensor.isFinite_exact _
    finite_b := Tensor.isFinite_exact _ }

variable (p : Problem K) (Q : (Matrix (Fin p.m) (Fin p.m) K)ˣ)

theorem matrix_combine : (p.combine Q).matrix = Q.val * p.matrix :=
  Tensor.toMatrix_ofMatrix _

theorem cost_combine : (p.combine Q).cost = p.cost := rfl

theorem target_combine : (p.combine Q).target = Q.val *ᵥ p.target := Tensor.toVector_ofVector _

end Problem

namespace Point

/-- The point with the multipliers of the combined constraints. -/
def combine (Q : (Matrix (Fin m) (Fin m) K)ˣ) (w : Point K m n) : Point K m n :=
  { w with y := (Q⁻¹).valᵀ *ᵥ w.y }

section Coordinates

variable (Q : (Matrix (Fin m) (Fin m) K)ˣ) (w d pred : Point K m n)

@[simp] theorem combine_x : (w.combine Q).x = w.x := rfl

@[simp] theorem combine_y : (w.combine Q).y = (Q⁻¹).valᵀ *ᵥ w.y := rfl

@[simp] theorem combine_z : (w.combine Q).z = w.z := rfl

@[simp] theorem combine_tau : (w.combine Q).tau = w.tau := rfl

@[simp] theorem combine_kappa : (w.combine Q).kappa = w.kappa := rfl

/-- The combination can be undone. -/
theorem combine_inv_combine : (w.combine Q).combine Q⁻¹ = w := by
  ext <;> simp [mulVec_mulVec, ← transpose_mul]

theorem combine_combine_inv : (w.combine Q⁻¹).combine Q = w := by
  simpa using w.combine_inv_combine Q⁻¹

theorem combine_injective : Function.Injective (combine Q : Point K m n → Point K m n) :=
  Function.LeftInverse.injective fun w => w.combine_inv_combine Q

theorem combine_blindStart : (blindStart m n : Point K m n).combine Q = blindStart m n := by
  simp [combine, blindStart]

theorem combine_move (alpha : K) :
    (w.move d alpha).combine Q = (w.combine Q).move (d.combine Q) alpha := by
  simp [combine, move, mulVec_add, mulVec_smul]

theorem mu_combine : (w.combine Q).mu = w.mu := rfl

variable {w}

theorem Positive.combine (h : w.Positive) : (w.combine Q).Positive :=
  ⟨h.x, h.z, h.tau, h.kappa⟩

theorem Nonneg.combine (h : w.Nonneg) : (w.combine Q).Nonneg :=
  ⟨h.x, h.z, h.tau, h.kappa⟩

theorem Interior.combine (h : w.Interior) : (w.combine Q).Interior :=
  ⟨h.x, h.z, h.tau, h.kappa⟩

end Coordinates

end Point

/-! ### Residuals -/

section Residuals

variable (p : Problem K) (Q : (Matrix (Fin p.m) (Fin p.m) K)ˣ)

namespace Problem

theorem mulVec_combine (x : Fin p.n → K) :
    (p.combine Q).matrix *ᵥ x = Q.val *ᵥ (p.matrix *ᵥ x) := by
  rw [matrix_combine, mulVec_mulVec]

theorem transpose_mulVec_combine (y : Fin p.m → K) :
    (p.combine Q).matrixᵀ *ᵥ ((Q⁻¹).valᵀ *ᵥ y) = p.matrixᵀ *ᵥ y := by
  rw [matrix_combine, mulVec_mulVec, ← transpose_mul, ← Matrix.mul_assoc, Units.inv_mul,
    Matrix.one_mul]

theorem target_dotProduct_combine (y : Fin p.m → K) :
    (p.combine Q).target ⬝ᵥ ((Q⁻¹).valᵀ *ᵥ y) = p.target ⬝ᵥ y := by
  rw [target_combine, dotProduct_transpose_mulVec, mulVec_mulVec, Units.inv_mul, one_mulVec,
    dotProduct_comm]

end Problem

namespace Point

variable (w : Point K p.m p.n)

/-- The primal residual is combined like the constraints. -/
theorem primal_combine : (w.combine Q).primal (p.combine Q) = Q.val *ᵥ w.primal p := by
  rw [primal, primal, combine_x, combine_tau, p.mulVec_combine, p.target_combine, mulVec_sub,
    mulVec_smul]

theorem dual_combine : (w.combine Q).dual (p.combine Q) = w.dual p := by
  rw [dual, dual, combine_y, combine_tau, combine_z, p.transpose_mulVec_combine, p.cost_combine]

theorem gap_combine : (w.combine Q).gap (p.combine Q) = w.gap p := by
  rw [gap, gap, combine_y, combine_x, combine_kappa, p.target_dotProduct_combine, p.cost_combine]

end Point

end Residuals

/-! ### The equations -/

section Equations

variable {p : Problem K} (Q : (Matrix (Fin p.m) (Fin p.m) K)ˣ) {w d pred : Point K p.m p.n}
  {gamma r_tk : K} {r_xz : Fin p.n → K}

/-- **The Newton equations of the two programs say the same.**  The equation of the constraints is
combined like them, and no other one changes. -/
theorem isNewtonStep_combine_iff :
    IsNewtonStep (p.combine Q) (w.combine Q) gamma r_xz r_tk (d.combine Q) ↔
      IsNewtonStep p w gamma r_xz r_tk d := by
  have hprimal : (p.combine Q).matrix *ᵥ d.x - d.tau • (p.combine Q).target =
      (1 - gamma) • (w.combine Q).primal (p.combine Q) ↔
        p.matrix *ᵥ d.x - d.tau • p.target = (1 - gamma) • w.primal p := by
    rw [p.mulVec_combine, p.target_combine, w.primal_combine, ← mulVec_smul, ← mulVec_smul,
      ← mulVec_sub]
    exact (mulVec_injective_of_isUnit Q.isUnit).eq_iff
  have hdual : (p.combine Q).matrixᵀ *ᵥ (d.combine Q).y + d.z - d.tau • (p.combine Q).cost =
      (1 - gamma) • (w.combine Q).dual (p.combine Q) ↔
        p.matrixᵀ *ᵥ d.y + d.z - d.tau • p.cost = (1 - gamma) • w.dual p := by
    rw [Point.combine_y, p.transpose_mulVec_combine, p.cost_combine, w.dual_combine]
  have hgap : -((p.combine Q).cost ⬝ᵥ d.x) + (p.combine Q).target ⬝ᵥ (d.combine Q).y - d.kappa =
      (1 - gamma) * (w.combine Q).gap (p.combine Q) ↔
        -(p.cost ⬝ᵥ d.x) + p.target ⬝ᵥ d.y - d.kappa = (1 - gamma) * w.gap p := by
    rw [Point.combine_y, p.target_dotProduct_combine, p.cost_combine, w.gap_combine]
  constructor
  · intro h
    exact ⟨hprimal.1 h.primal, hdual.1 h.dual, hgap.1 h.gap, h.products, h.number⟩
  · intro h
    exact ⟨hprimal.2 h.primal, hdual.2 h.dual, hgap.2 h.gap, h.products, h.number⟩

/-- A regular point is regular with the constraints combined. -/
theorem Point.Regular.combine (h : w.Regular p) : (w.combine Q).Regular (p.combine Q) := by
  intro gamma r_xz r_tk d d' hd hd'
  -- Every point of the combined program is what a point of the program becomes.
  rw [← d.combine_combine_inv Q, isNewtonStep_combine_iff] at hd
  rw [← d'.combine_combine_inv Q, isNewtonStep_combine_iff] at hd'
  exact Point.combine_injective Q⁻¹ (h _ _ _ _ _ hd hd')

/-- Independent constraints stay independent. -/
theorem Problem.independent_combine (h : LinearIndependent K p.matrix.row) :
    LinearIndependent K (p.combine Q).matrix.row := by
  rw [independent_rows_iff] at h ⊢
  intro v hv
  rw [p.matrix_combine, transpose_mul, ← mulVec_mulVec] at hv
  calc v = (Q⁻¹).valᵀ *ᵥ (Q.valᵀ *ᵥ v) := by
        rw [mulVec_mulVec, ← transpose_mul, Units.mul_inv, transpose_one, one_mulVec]
    _ = 0 := by rw [h _ hv, mulVec_zero]

end Equations

/-! ### Directions -/

section Directions

variable {p : Problem K} {w d pred : Point K p.m p.n} {beta alpha : K}

/-- **A direction is one with the constraints combined.** -/
theorem DirectionAt.combine (h : DirectionAt p w beta pred alpha d)
    (Q : (Matrix (Fin p.m) (Fin p.m) K)ˣ) :
    DirectionAt (p.combine Q) (w.combine Q) beta (pred.combine Q) alpha (d.combine Q) where
  interior := h.interior.combine Q
  independent := Problem.independent_combine Q h.independent
  regular := h.regular.combine Q
  predictor := (isNewtonStep_combine_iff Q).2 h.predictor
  -- The ratio test does not read the multipliers.
  step := h.step
  corrector := (isNewtonStep_combine_iff Q).2 h.corrector

end Directions

/-! ### Paths -/

section Paths

variable (p : Problem K) (Q : (Matrix (Fin p.m) (Fin p.m) K)ˣ)

/-- Of the indicators only the primal infeasibility can change. -/
theorem Point.indicators_combine (w : Point K p.m p.n) :
    (w.combine Q).indicators (p.combine Q) =
      { w.indicators p with rhoP := ((w.combine Q).indicators (p.combine Q)).rhoP } := by
  have hdual : (blindStart p.m p.n).dual (p.combine Q) = (blindStart p.m p.n).dual p := by
    rw [← (blindStart p.m p.n).dual_combine, combine_blindStart]
  have hgap : (blindStart p.m p.n).gap (p.combine Q) = (blindStart p.m p.n).gap p := by
    rw [← (blindStart p.m p.n).gap_combine, combine_blindStart]
  simp only [indicators, dual_combine, gap_combine, hdual, hgap, combine_x, combine_y, combine_tau,
    p.target_dotProduct_combine, p.cost_combine, mu_combine]

/-- **Two iterations that differ by the constraints being combined**: the step is the same, and so
are `x`, `z`, `tau` and `kappa` where they lead, and all indicators but the primal infeasibility. -/
structure Advance.Combines (a a' : Advance K) : Prop where
  alpha : a'.alpha = a.alpha
  point : ∃ w : Point K p.m p.n, a.point = w.iterate ∧ a'.point = (w.combine Q).iterate
  indicators : a'.indicators = { a.indicators with rhoP := a'.indicators.rhoP }

variable {p} {o : Options K} {w d : Point K p.m p.n} {alpha : K}

/-- **An accepted iteration is one with the constraints combined.** -/
theorem AdvanceAt.combine (h : AdvanceAt p o w d alpha) :
    AdvanceAt (p.combine Q) o (w.combine Q) (d.combine Q) alpha where
  direction := by
    obtain ⟨pred, alpha', hdirection⟩ := h.direction
    exact ⟨pred.combine Q, alpha', hdirection.combine Q⟩
  step := h.step
  tau_pos := h.tau_pos

theorem exists_advance_combine (hw : w.Nonneg) {a : Advance K}
    (ha : (Kernels.standard p o).advance w.iterate = .ok a) :
    ∃ a', (Kernels.standard (p.combine Q) o).advance (w.combine Q).iterate = .ok a' ∧
      a.Combines p Q a' := by
  obtain ⟨d, alpha, hadvance, rfl⟩ := (advance_eq_ok_iff hw).1 ha
  have hcombined := (advance_eq_ok_iff (p := p.combine Q) (hw.combine Q)).2
    ⟨_, _, hadvance.combine Q, rfl⟩
  rw [← Point.combine_move] at hcombined
  exact ⟨_, hcombined, rfl, ⟨_, rfl, rfl⟩, Point.indicators_combine p Q _⟩

/-- **A path of the program is a path with the constraints combined.** -/
theorem Kernels.Path.combine {as : List (Advance K)} {it : Iterate K}
    (h : (Kernels.standard p o).Path (.blindStart p.m p.n) as it) :
    ∃ (w : Point K p.m p.n) (as' : List (Advance K)), it = w.iterate ∧
      (Kernels.standard (p.combine Q) o).Path (.blindStart p.m p.n) as' (w.combine Q).iterate ∧
      List.Forall₂ (Advance.Combines p Q) as as' := by
  -- The points of the path satisfy the equations, and these are the same with the constraints
  -- combined.
  induction h with
  | nil =>
    refine ⟨.blindStart p.m p.n, [], (Point.iterate_blindStart _ _).symm, ?_, .nil⟩
    rw [Point.combine_blindStart, Point.iterate_blindStart]
    exact .nil
  | snoc path step ih =>
    obtain ⟨w, as', rfl, hpath, hcombines⟩ := ih
    obtain ⟨v, hv, honPath⟩ := path.onPath
    obtain rfl := Point.iterate_injective hv
    obtain ⟨a', ha', ha⟩ := exists_advance_combine Q honPath.nonneg step
    obtain ⟨w₁, hpoint, hpoint'⟩ := ha.point
    refine ⟨w₁, as' ++ [a'], hpoint, ?_, List.rel_append hcombines (.cons ha .nil)⟩
    rw [← hpoint']
    exact .snoc hpath ha'

end Paths

/-! ### The two programs -/

section Programs

variable (p : Problem K) (Q : (Matrix (Fin p.m) (Fin p.m) K)ˣ)

/-- The iterations at the same place of two solves differ by the constraints being combined. -/
theorem combines_of_solve {o : Options K} {callback callback' : Option (Callback K)}
    {clock clock' : ℕ → K} {k : ℕ} {a a' : Advance K}
    (ha : (solve p o callback clock).advances[k]? = some a)
    (ha' : (solve (p.combine Q) o callback' clock').advances[k]? = some a') :
    a.Combines p Q a' := by
  obtain ⟨s, answer, w₁, hends⟩ := exists_solveEnds p o callback clock
  obtain ⟨s', answer', w₁', hends'⟩ := exists_solveEnds (p.combine Q) o callback' clock'
  obtain ⟨it, hpath, hstep⟩ := hends.path.exists_step ha
  obtain ⟨it', hpath', hstep'⟩ := hends'.path.exists_step ha'
  obtain ⟨w, as', rfl, hcombined, hcombines⟩ := hpath.combine Q
  have hlength : as'.length =
      ((solve (p.combine Q) o callback' clock').advances.take k).length := by
    obtain ⟨hlt, -⟩ := List.getElem?_eq_some_iff.1 ha
    obtain ⟨hlt', -⟩ := List.getElem?_eq_some_iff.1 ha'
    rw [← hcombines.length_eq, List.length_take_of_le hlt.le, List.length_take_of_le hlt'.le]
  -- The combined path and that of the second solve have the same length, so they are one.
  obtain ⟨-, rfl⟩ := hcombined.unique hpath' hlength
  obtain ⟨v, hv, honPath⟩ := hpath.onPath
  obtain rfl := Point.iterate_injective hv
  obtain ⟨a'', ha'', hcombines'⟩ := exists_advance_combine Q honPath.nonneg hstep
  obtain rfl := Except.ok.inj (ha''.symm.trans hstep')
  exact hcombines'

/-- **Scaling or combining constraints does not change the path** of `x`, `z`, `tau` and `kappa`.
The combined data are accepted.  At every positive point the direction is the same but for its part
in the multipliers, which are those of the combined constraints.  So every path from the blind start
is one of the combined program, with the same steps, and the iterations at the same place of any two
solves correspond. -/
theorem searchDirection_combine (hrows : LinearIndependent K p.matrix.row) :
    Problem.accept p.c (.ofMatrix (Q.val * p.matrix)) (.ofVector (Q.val *ᵥ p.target)) =
        .ok (p.combine Q) ∧
      (∀ (traps : Traps) (backend : Backend) (w : Point K p.m p.n) (beta : K), w.Positive →
        ∃ d : Point K p.m p.n,
          searchDirection traps (factorize backend) p w.iterate beta = .ok d.direction ∧
          searchDirection traps (factorize backend) (p.combine Q) (w.combine Q).iterate beta =
            .ok (d.combine Q).direction) ∧
      (∀ (o : Options K) (as : List (Advance K)) (it : Iterate K),
        (Kernels.standard p o).Path (.blindStart p.m p.n) as it →
          ∃ (w : Point K p.m p.n) (as' : List (Advance K)), it = w.iterate ∧
            (Kernels.standard (p.combine Q) o).Path (.blindStart p.m p.n) as'
              (w.combine Q).iterate ∧
            List.Forall₂ (Advance.Combines p Q) as as') ∧
      ∀ (o : Options K) (callback callback' : Option (Callback K)) (clock clock' : ℕ → K) (k : ℕ)
        (a a' : Advance K), (solve p o callback clock).advances[k]? = some a →
          (solve (p.combine Q) o callback' clock').advances[k]? = some a' → a.Combines p Q a' := by
  refine ⟨(p.combine Q).accept_data, fun traps backend w beta hw => ?_,
    fun o as it hpath => hpath.combine Q, fun o _ _ _ _ k a a' => combines_of_solve p Q⟩
  obtain ⟨pred, alpha, d, hd⟩ := exists_directionAt hrows hw beta
  exact ⟨d, hd.searchDirection_eq hw traps backend,
    (hd.combine Q).searchDirection_eq (hw.combine Q) traps backend⟩

/-- Twice the one constraint of the identity leads from the blind start in the same direction, with
half of the multiplier. -/
theorem searchDirection_combine_identityProgram :
    LinearIndependent ℝ (identityProgram : Problem ℝ).matrix.row ∧
      (Point.blindStart 1 1 : Point ℝ 1 1).Positive ∧
      ∃ (Q : (Matrix (Fin 1) (Fin 1) ℝ)ˣ) (d : Point ℝ 1 1), Q.val = (2 : ℝ) • 1 ∧
        searchDirection .on (factorize .host) (identityProgram : Problem ℝ)
          (Point.blindStart 1 1 : Point ℝ 1 1).iterate (1 / 10) = .ok d.direction ∧
        searchDirection .on (factorize .host) ((identityProgram : Problem ℝ).combine Q)
          ((Point.blindStart 1 1 : Point ℝ 1 1).combine Q).iterate (1 / 10) =
            .ok (d.combine Q).direction ∧
        (d.combine Q).x = d.x ∧ (d.combine Q).y = (1 / 2 : ℝ) • d.y := by
  have hw : (Point.blindStart 1 1 : Point ℝ 1 1).Positive := Point.positive_blindStart 1 1
  let Q : (Matrix (Fin 1) (Fin 1) ℝ)ˣ := ⟨(2 : ℝ) • 1, (1 / 2 : ℝ) • 1, by simp, by simp⟩
  have hhalf : ∀ d : Point ℝ 1 1, (d.combine Q).y = (1 / 2 : ℝ) • d.y := by
    intro d
    have hinv : (Q⁻¹).val = (1 / 2 : ℝ) • 1 := rfl
    rw [Point.combine_y, hinv, transpose_smul, transpose_one, smul_mulVec, one_mulVec]
  obtain ⟨-, hdirection, -⟩ :=
    searchDirection_combine (identityProgram : Problem ℝ) Q independent_identityProgram
  obtain ⟨d, hd, hd'⟩ := hdirection .on .host (.blindStart 1 1) (1 / 10) hw
  exact ⟨independent_identityProgram, hw, Q, d, rfl, hd, hd', rfl, hhalf d⟩

end Programs

end SelfDual
