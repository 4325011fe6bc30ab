import SelfDual.Proofs.Iteration
/-!
**What an iteration is determined by.**

How a direction is computed, by a factorization and by elimination, leaves no trace in what is
computed: in the interior, for independent rows and at a regular point, the search direction is the
one solution of its equations, and anywhere else there is none.  So an iteration is described here
by equations alone, and whatever the equations do not see the iteration does not see either.

Main definitions:

* `DirectionAt` — a search direction by its equations;
* `AdvanceAt` — an accepted iteration by its equations.

Main results:

* `RatioStep.unique` — the step that some coordinates allow is determined;
* `Point.not_regular_of_pivot_eq_zero` — where the pivot is zero, a point is not regular;
* `directionAt_cases`, `searchDirection_eq_ok_iff` — **the search direction is the solution of its
  equations**;
* `advanceAt_cases`, `advance_eq_ok_iff` — **an iteration is accepted exactly if its equations are
  satisfied**;
* `exists_breakdown_of_error` — all else is a breakdown.
-/

set_option autoImplicit false

open Matrix

namespace SelfDual

variable {K : Type} [ExactField K]

/-! ### Steps -/

/-- The step that some coordinates allow is determined by the coordinates. -/
theorem RatioStep.unique {ι : Type} {v dv : ι → K} {alpha0 r r' : K} (h : RatioStep v dv alpha0 r)
    (h' : RatioStep v dv alpha0 r') : r = r' := by
  cases h with
  | free increases eq =>
    cases h' with
    | free increases' eq' => rw [eq, eq']
    | blocked j decreases' eq' least' => exact absurd (increases j) decreases'.not_ge
  | blocked i decreases eq least =>
    cases h' with
    | free increases' eq' => exact absurd (increases' i) decreases.not_ge
    | blocked j decreases' eq' least' =>
      have hratio : v i / -dv i = v j / -dv j :=
        le_antisymm (least j decreases') (least' i decreases)
      rw [eq, eq', hratio]

/-! ### Regular points -/

namespace Point

/-- Different points are different directions. -/
theorem direction_injective {m n : ℕ} :
    Function.Injective (direction : Point K m n → Direction K) := by
  rintro ⟨x, y, z, tau, kappa⟩ ⟨x', y', z', tau', kappa'⟩ h
  simp only [direction, Direction.mk.injEq] at h
  obtain ⟨hx, hy, hz, rfl, rfl⟩ := h
  rw [Tensor.ofVector_injective hx, Tensor.ofVector_injective hy, Tensor.ofVector_injective hz]

variable {p : Problem K} {w : Point K p.m p.n}

/-- Nothing changes nothing. -/
theorem isNewtonStep_zero (p : Problem K) (w : Point K p.m p.n) :
    IsNewtonStep p w 1 0 0 ⟨0, 0, 0, 0, 0⟩ := by
  constructor <;> simp

/-- **Where the pivot is zero, a point is not regular**: there `tau` can change while residuals and
products stay. -/
theorem not_regular_of_pivot_eq_zero {u : Fin p.n → K} {v : Fin p.m → K}
    (h : SolvesSaddle p.matrix (w.x / w.z) p.cost p.target u v) (hx : ∀ i, w.x i ≠ 0)
    (htau : w.tau ≠ 0) (hpivot : w.pivot p u v = 0) : ¬w.Regular p := by
  intro hregular
  have hchange : IsNewtonStep p w 1 0 0 ⟨u, v, -(w.z * u) / w.x, 1, -w.kappa / w.tau⟩ := by
    constructor
    case primal =>
      simp [h.feasible]
    case dual =>
      have hz : -(w.z * u) / w.x = -(u / (w.x / w.z)) := by
        funext i
        simp only [Pi.div_apply, Pi.neg_apply, Pi.mul_apply, div_div_eq_mul_div]
        ring
      simp only [hz, one_smul, sub_self, zero_smul, ← h.stationary]
      abel
    case gap =>
      have hcoupling : p.coupling u v = -(w.kappa / w.tau) := by
        rw [pivot, add_comm] at hpivot
        exact eq_neg_of_add_eq_zero_left hpivot
      rw [Problem.coupling] at hcoupling
      simp only [hcoupling, sub_self, zero_mul]
      ring
    case products =>
      intro i
      simp only [Pi.div_apply, Pi.neg_apply, Pi.mul_apply, Pi.zero_apply]
      rw [mul_div_cancel₀ _ (hx i)]
      ring
    case number =>
      dsimp only
      rw [mul_div_cancel₀ _ htau]
      ring
  have hsame := hregular 1 0 0 _ _ hchange (isNewtonStep_zero p w)
  exact zero_ne_one (congrArg Point.tau hsame)

end Point

/-! ### Search directions -/

/-- **A search direction by its equations**: in the interior, for independent rows and at a regular
point, a predictor, the step along it, and the corrector with the centering that the step asks
for. -/
structure DirectionAt (p : Problem K) (w : Point K p.m p.n) (beta : K) (pred : Point K p.m p.n)
    (alpha : K) (d : Point K p.m p.n) : Prop where
  interior : w.Interior
  independent : LinearIndependent K p.matrix.row
  regular : w.Regular p
  predictor : IsNewtonStep p w 0 (-w.x * w.z) (-w.tau * w.kappa) pred
  step : stepLength .on w.iterate pred.direction 1 = .ok alpha
  corrector : IsNewtonStep p w (centering beta alpha)
    (w.correctedProducts pred (centering beta alpha))
    (w.correctedNumber pred (centering beta alpha)) d

section Directions

variable {p : Problem K} {w d d' pred pred' : Point K p.m p.n} {beta alpha alpha' : K}

/-- The equations determine the search direction. -/
theorem DirectionAt.unique (h : DirectionAt p w beta pred alpha d)
    (h' : DirectionAt p w beta pred' alpha' d') : d' = d := by
  obtain rfl := h.regular _ _ _ _ _ h.predictor h'.predictor
  obtain rfl := Except.ok.inj (h.step.symm.trans h'.step)
  exact h.regular _ _ _ _ _ h.corrector h'.corrector

/-- **A search direction is found and satisfies its equations**, or there is a breakdown and the
equations cannot be satisfied. -/
theorem directionAt_cases (backend : Backend) (hw : w.Nonneg) (beta : K) :
    (∃ pred alpha d, searchDirection .on (factorize backend) p w.iterate beta = .ok d.direction ∧
      DirectionAt p w beta pred alpha d) ∨
    ((∃ b, searchDirection .on (factorize backend) p w.iterate beta = .error (.breakdown b)) ∧
      ∀ pred alpha d, ¬DirectionAt p w beta pred alpha d) := by
  by_cases hinterior : w.Interior
  · rcases NewtonSystem.assemble_cases .on backend p w with ⟨f, u, v, hs, hasm⟩ | ⟨b, hs, hrows⟩
    · rcases searchDirection_of_pivot hs hasm hinterior beta with
        ⟨pred, alpha, d, -, halpha, hd, hregular, hdirection⟩ | ⟨hpivot, hd⟩
      · exact .inl ⟨pred, alpha, d, hd, hinterior, hasm.independent, hregular,
          hdirection.predictor, halpha, hdirection.corrector⟩
      · refine .inr ⟨⟨_, hd⟩, fun pred alpha d h => ?_⟩
        exact Point.not_regular_of_pivot_eq_zero hasm.saddle hasm.x_ne_zero hinterior.tau.ne'
          hpivot h.regular
    · refine .inr ⟨⟨b, ?_⟩, fun pred alpha d h => hrows hinterior.ratio_pos h.independent⟩
      rw [searchDirection, hs, error_bind]
  · rcases searchDirection_cases backend hw beta with ⟨-, -, -, -, h, -, -⟩ | ⟨b, hb, -⟩
    · exact absurd h hinterior
    · exact .inr ⟨⟨b, hb⟩, fun pred alpha d h => hinterior h.interior⟩

/-- **The search direction is the solution of its equations**, however it is computed. -/
theorem searchDirection_eq_ok_iff (backend : Backend) (hw : w.Nonneg) (beta : K) :
    searchDirection .on (factorize backend) p w.iterate beta = .ok d.direction ↔
      ∃ pred alpha, DirectionAt p w beta pred alpha d := by
  rcases directionAt_cases backend hw beta with ⟨pred, alpha, d', hd', h'⟩ | ⟨⟨b, hb⟩, hnone⟩
  · constructor
    · intro hd
      obtain rfl := Point.direction_injective (Except.ok.inj (hd'.symm.trans hd))
      exact ⟨pred, alpha, h'⟩
    · rintro ⟨pred', alpha', h⟩
      rw [h'.unique h, hd']
  · constructor
    · intro hd
      cases hb.symm.trans hd
    · rintro ⟨pred, alpha, h⟩
      exact absurd h (hnone pred alpha d)

end Directions

/-! ### Iterations -/

/-- **An accepted iteration by its equations**: a search direction, and the step along it, which
leaves `tau` positive. -/
structure AdvanceAt (p : Problem K) (o : Options K) (w d : Point K p.m p.n) (alpha : K) :
    Prop where
  direction : ∃ pred alpha', DirectionAt p w o.beta pred alpha' d
  step : stepLength .on w.iterate d.direction o.alpha0 = .ok alpha
  tau_pos : 0 < (w.move d alpha).tau

section Iterations

variable {p : Problem K} {o : Options K} {w d d' : Point K p.m p.n} {alpha alpha' : K}

/-- The equations determine the iteration. -/
theorem AdvanceAt.unique (h : AdvanceAt p o w d alpha) (h' : AdvanceAt p o w d' alpha') :
    d' = d ∧ alpha' = alpha := by
  obtain ⟨pred, beta, hdirection⟩ := h.direction
  obtain ⟨pred', beta', hdirection'⟩ := h'.direction
  obtain rfl := hdirection.unique hdirection'
  exact ⟨rfl, Except.ok.inj (h'.step.symm.trans h.step)⟩

/-- **An iteration is accepted and satisfies its equations**, or it breaks down and the equations
cannot be satisfied. -/
theorem advanceAt_cases (p : Problem K) (o : Options K) {w : Point K p.m p.n} (hw : w.Nonneg) :
    (∃ d alpha, (Kernels.standard p o).advance w.iterate =
        .ok ⟨alpha, (w.move d alpha).iterate, (w.move d alpha).indicators p⟩ ∧
      AdvanceAt p o w d alpha) ∨
    ((∃ b, (Kernels.standard p o).advance w.iterate = .error (.breakdown b)) ∧
      ∀ d alpha, ¬AdvanceAt p o w d alpha) := by
  rcases directionAt_cases o.backend hw o.beta with ⟨pred, beta, d, hd, hat⟩ | ⟨⟨b, hb⟩, hnone⟩
  swap
  · refine .inr ⟨⟨b, by simp [Kernels.advance, Kernels.standard, hb]⟩, fun d alpha h => ?_⟩
    obtain ⟨pred, beta, hat⟩ := h.direction
    exact hnone pred beta d hat
  obtain ⟨alpha, halpha, hstep⟩ := stepLength_exact .on hw d o.alpha0_pos
  have hadvance : (Kernels.standard p o).advance w.iterate =
      (indicators .on p (w.move d alpha).iterate >>= fun ind =>
        .ok ⟨alpha, (w.move d alpha).iterate, ind⟩) := by
    simp [Kernels.advance, Kernels.standard, hd, halpha, pure, Except.pure]
  have hnonneg : (w.move d alpha).Nonneg := hstep.keeps.nonneg (sub_nonneg.2 o.alpha0_le) hw
  rcases hnonneg.tau.eq_or_lt with htau | htau
  · obtain ⟨b, hb⟩ := indicators_of_tau_eq_zero p htau.symm
    refine .inr ⟨⟨b, by rw [hadvance, hb, error_bind]⟩, fun d' alpha' h => ?_⟩
    obtain ⟨pred', beta', hat'⟩ := h.direction
    obtain rfl := hat.unique hat'
    obtain rfl := Except.ok.inj (halpha.symm.trans h.step)
    exact h.tau_pos.ne htau
  · refine .inl ⟨d, alpha, ?_, ⟨pred, beta, hat⟩, halpha, htau⟩
    rw [hadvance, indicators_exact .on p htau, ok_bind]

/-- **An iteration is accepted exactly if its equations are satisfied.** -/
theorem advance_eq_ok_iff (hw : w.Nonneg) {a : Advance K} :
    (Kernels.standard p o).advance w.iterate = .ok a ↔ ∃ d alpha, AdvanceAt p o w d alpha ∧
      a = ⟨alpha, (w.move d alpha).iterate, (w.move d alpha).indicators p⟩ := by
  rcases advanceAt_cases p o hw with ⟨d, alpha, hd, h⟩ | ⟨⟨b, hb⟩, hnone⟩
  · constructor
    · intro ha
      exact ⟨d, alpha, h, Except.ok.inj (ha.symm.trans hd)⟩
    · rintro ⟨d', alpha', h', rfl⟩
      obtain ⟨rfl, rfl⟩ := h.unique h'
      exact hd
  · constructor
    · intro ha
      cases hb.symm.trans ha
    · rintro ⟨d, alpha, h, rfl⟩
      exact absurd h (hnone d alpha)

/-- An iteration that is not accepted breaks down. -/
theorem exists_breakdown_of_error (hw : w.Nonneg) {e : Error}
    (he : (Kernels.standard p o).advance w.iterate = .error e) : ∃ b, e = .breakdown b := by
  rcases advanceAt_cases p o hw with ⟨d, alpha, hd, -⟩ | ⟨⟨b, hb⟩, -⟩
  · cases hd.symm.trans he
  · exact ⟨b, Except.error.inj (he.symm.trans hb)⟩

end Iterations

end SelfDual
