import SelfDual.Proofs.Breakdown
import SelfDual.Proofs.Decision
/-!
**Solves that decide in their first iteration.**

The direction that aims at the boundary from the blind start may have no second-order terms.  Then
every coordinate stays or falls by one, so a full step along it reaches the boundary, nothing is
centred, and the corrector asks for the same direction again.  The first iteration goes the fraction
`alpha0` along it, and a tolerance above `1 - alpha0` lets the solve decide there.

Main definitions:

* `StraightStart` — a direction at the blind start without second-order terms;
* `firstAdvance` — the first iteration along it;
* `negativeProgram`, `rayProgram` — programs that are infeasible and unbounded and start this way.

Main results:

* `StraightStart.searchDirection_eq` — **the corrector is the predictor**;
* `StraightStart.advance_eq` — **the first iteration** goes the fraction `alpha0` along it;
* `Run.loop_of_reason` — a loop whose first accepted iteration gives a reason stops for it;
* `StraightStart.exists_decidedAt` — **a solve that decides in its first iteration**.
-/

set_option autoImplicit false

open Matrix

namespace SelfDual

/-! ### Loops of one turn -/

namespace Run

variable {R : Type} [Scalar R] {run : Run R} {s : Progress R} {a : Advance R} {stop : Stop}

/-- A loop without a callback whose first accepted iteration gives a reason stops for it. -/
theorem loop_of_reason (hcallback : run.callback = none)
    (ha : run.kernels.advance s.point = .ok a) (h : run.Reason (s.accept a) false stop)
    {left : Nat} (hleft : 0 < left) :
    ∃ events, Event.advances events = [] ∧
      run.loop left s = ((s.accept a).report events, .ok stop) := by
  obtain ⟨events, hevents, hstate⟩ := run.observe_eq (s.accept a) a.alpha
  have hwish : (run.observe (s.accept a) a.alpha).2 = .ok false := by
    rw [observe, hcallback]
  have hobserve : run.observe (s.accept a) a.alpha = ((s.accept a).report events, .ok false) :=
    Prod.ext hstate hwish
  -- A report changes nothing that a verdict depends on.
  have hdecided : run.verdict (s.accept a) false = .ok (some stop) := verdict_eq_iff.2 h
  have hverdict : run.verdict ((s.accept a).report events) false = .ok (some stop) := hdecided
  refine ⟨events, hevents, ?_⟩
  cases left with
  | zero => cases hleft
  | succ left =>
    rw [loop, ha]
    dsimp only
    rw [hobserve]
    dsimp only
    rw [hverdict]

end Run

variable {K : Type} [ExactField K]

/-! ### Straight starts -/

/-- The step that coordinates at one allow if each of them stays or falls by one. -/
theorem RatioStep.eq_of_unit {ι : Type} {v dv : ι → K} {alpha0 r : K}
    (h : RatioStep v dv alpha0 r) (hv : ∀ i, v i = 1) (hdv : ∀ i, dv i = 0 ∨ dv i = -1) :
    r = alpha0 := by
  cases h with
  | free increases eq => exact eq
  | blocked i decreases eq least =>
    have hi : dv i = -1 := (hdv i).resolve_left decreases.ne
    rw [eq, hv, hi, neg_neg, div_one, mul_one]

/-- **A straight start**: the direction that aims at the boundary from the blind start has no
second-order terms. -/
structure StraightStart (p : Problem K) (d : Point K p.m p.n) : Prop where
  predictor : IsNewtonStep p (.blindStart p.m p.n) 0 (-1) (-1) d
  products : ∀ i, d.x i * d.z i = 0
  number : d.tau * d.kappa = 0

/-- The first iteration along a direction. -/
def firstAdvance (p : Problem K) (o : Options K) (d : Point K p.m p.n) : Advance K where
  alpha := o.alpha0
  point := ((Point.blindStart p.m p.n).move d o.alpha0).iterate
  indicators := ((Point.blindStart p.m p.n).move d o.alpha0).indicators p

namespace StraightStart

variable {p : Problem K} {d : Point K p.m p.n}

/-- Two changes that add up to minus one and have no product. -/
theorem change_eq {a b : K} (hsum : a + b = -1) (hproduct : a * b = 0) : a = 0 ∨ a = -1 := by
  rcases mul_eq_zero.1 hproduct with ha | rfl
  · exact .inl ha
  · exact .inr (by rwa [add_zero] at hsum)

section Coordinates

variable (h : StraightStart p d)

include h

theorem x_add_z (i : Fin p.n) : d.x i + d.z i = -1 := by
  simpa [Point.blindStart] using h.predictor.products i

theorem tau_add_kappa : d.tau + d.kappa = -1 := by
  simpa [Point.blindStart] using h.predictor.number

theorem x_eq (i : Fin p.n) : d.x i = 0 ∨ d.x i = -1 :=
  change_eq (h.x_add_z i) (h.products i)

theorem z_eq (i : Fin p.n) : d.z i = 0 ∨ d.z i = -1 :=
  change_eq ((add_comm _ _).trans (h.x_add_z i)) ((mul_comm _ _).trans (h.products i))

theorem tau_eq : d.tau = 0 ∨ d.tau = -1 :=
  change_eq h.tau_add_kappa h.number

theorem kappa_eq : d.kappa = 0 ∨ d.kappa = -1 :=
  change_eq ((add_comm _ _).trans h.tau_add_kappa) ((mul_comm _ _).trans h.number)

/-! ### The first iteration -/

/-- The step along a straight start is as long as it may be. -/
theorem stepLength_eq {alpha0 : K} (hle : alpha0 ≤ 1) :
    stepLength .on (Point.blindStart p.m p.n).iterate d.direction alpha0 = .ok alpha0 := by
  obtain ⟨rx, rz, rtau, rkappa, hmin, hx, hz, htau, hkappa⟩ :=
    exists_ratioSteps .on (Point.blindStart p.m p.n) d alpha0
  obtain rfl := hx.eq_of_unit (fun _ => rfl) h.x_eq
  obtain rfl := hz.eq_of_unit (fun _ => rfl) h.z_eq
  obtain rfl := htau.eq_of_unit (fun _ => rfl) fun _ => h.tau_eq
  obtain rfl := hkappa.eq_of_unit (fun _ => rfl) fun _ => h.kappa_eq
  rw [hmin, min_eq_right hle, min_self, min_self, min_self]

theorem isStep {alpha0 : K} (hpos : 0 < alpha0) (hle : alpha0 ≤ 1) :
    (Point.blindStart p.m p.n).IsStep d alpha0 alpha0 := by
  obtain ⟨alpha, halpha, hstep⟩ :=
    stepLength_exact .on (Point.positive_blindStart p.m p.n).interior.nonneg d hpos
  rw [h.stepLength_eq hle] at halpha
  rwa [← Except.ok.inj halpha] at hstep

/-- A straight start is the search direction of its own predictor, which makes a full step. -/
theorem isSearchDirection (beta : K) : IsSearchDirection p (.blindStart p.m p.n) beta d 1 d := by
  have hpredictor : IsNewtonStep p (.blindStart p.m p.n) 0
      (-(Point.blindStart p.m p.n).x * (Point.blindStart p.m p.n).z)
      (-(Point.blindStart p.m p.n).tau * (Point.blindStart p.m p.n).kappa) d := by
    simpa [Point.blindStart] using h.predictor
  constructor
  case predictor => exact hpredictor
  case step => exact h.isStep one_pos le_rfl
  case corrector =>
    -- Nothing is centred, and there are no second-order terms.
    have hcentering : centering beta 1 = 0 := by simp [centering]
    have hproducts : (Point.blindStart p.m p.n).correctedProducts d 0 = -1 := by
      funext i
      simp [Point.correctedProducts, Point.blindStart, h.products i]
    have hnumber : (Point.blindStart p.m p.n).correctedNumber d 0 = -1 := by
      simp [Point.correctedNumber, Point.blindStart, h.number]
    rw [hcentering, hproducts, hnumber]
    exact h.predictor

/-- **The corrector is the predictor.** -/
theorem searchDirection_eq (hrows : LinearIndependent K p.matrix.row) (backend : Backend)
    (beta : K) :
    searchDirection .on (factorize backend) p (Point.blindStart p.m p.n).iterate beta =
      .ok d.direction := by
  have hpositive : (Point.blindStart p.m p.n : Point K p.m p.n).Positive :=
    Point.positive_blindStart p.m p.n
  rcases NewtonSystem.assemble_cases .on backend p (.blindStart p.m p.n) with
    ⟨f, u, v, hs, hasm⟩ | ⟨b, -, hdependent⟩
  swap
  · exact absurd hrows (hdependent hpositive.interior.ratio_pos)
  rcases searchDirection_of_assembled hs hasm hpositive.interior beta with
    ⟨pred, alpha, d', -, halpha, hd', hregular, hdirection⟩ | ⟨hkappa, -⟩
  swap
  · exact absurd hkappa hpositive.kappa.ne'
  -- The Newton equations have one solution for either right-hand side.
  have hown := h.isSearchDirection beta
  obtain rfl : pred = d := hregular _ _ _ _ _ hown.predictor hdirection.predictor
  rw [h.stepLength_eq le_rfl] at halpha
  obtain rfl := Except.ok.inj halpha
  rw [hd', hregular _ _ _ _ _ hown.corrector hdirection.corrector]

theorem isIteration (hrows : LinearIndependent K p.matrix.row) {o : Options K}
    (hlt : o.alpha0 < 1) : IsIteration p o (.blindStart p.m p.n) d o.alpha0 := by
  have hpositive : (Point.blindStart p.m p.n : Point K p.m p.n).Positive :=
    Point.positive_blindStart p.m p.n
  have hstep := h.isStep o.alpha0_pos o.alpha0_le
  exact ⟨hpositive.interior, hrows, ⟨d, 1, h.isSearchDirection o.beta⟩, hstep,
    (hstep.keeps.positive (sub_pos.2 hlt) hpositive).tau⟩

/-- The point that the first iteration reaches is one of a solve. -/
theorem onPath (hrows : LinearIndependent K p.matrix.row) {o : Options K} (hlt : o.alpha0 < 1) :
    OnPath p o ((Point.blindStart p.m p.n).move d o.alpha0) :=
  (onPath_blindStart p o).step (h.isIteration hrows hlt)

/-- The complementarity along a straight start. -/
theorem mu_move (alpha : K) : ((Point.blindStart p.m p.n).move d alpha).mu = 1 - alpha := by
  rw [(h.isSearchDirection 0).mu_move, Point.mu_blindStart]
  simp [centering]

/-- No infeasibility after the first iteration exceeds what has been left of the step. -/
theorem infeasibilities_lt (hrows : LinearIndependent K p.matrix.row) {o : Options K}
    (hlt : o.alpha0 < 1) (hrest : 1 - o.alpha0 < o.tol) :
    (firstAdvance p o d).indicators.rhoP < o.tol ∧ (firstAdvance p o d).indicators.rhoD < o.tol ∧
      (firstAdvance p o d).indicators.rhoG < o.tol := by
  have hpath := h.onPath hrows hlt
  have hmu : ((Point.blindStart p.m p.n).move d o.alpha0).mu < o.tol := by
    rwa [h.mu_move]
  exact ⟨hpath.rhoP_le_mu.trans_lt hmu, hpath.rhoD_le_mu.trans_lt hmu,
    hpath.rhoG_le_mu.trans_lt hmu⟩

/-- **The first iteration** from a straight start. -/
theorem advance_eq (hrows : LinearIndependent K p.matrix.row) {o : Options K}
    (hlt : o.alpha0 < 1) :
    (Kernels.standard p o).advance (.blindStart p.m p.n) = .ok (firstAdvance p o d) := by
  have htau := (h.onPath hrows hlt).tau_pos
  rw [← Point.iterate_blindStart]
  simp [Kernels.advance, Kernels.standard, h.searchDirection_eq hrows o.backend o.beta,
    h.stepLength_eq o.alpha0_le, indicators_exact .on p htau, firstAdvance, pure, Except.pure]

/-- A straight start along which `tau` falls leads to a certificate. -/
theorem isCertificate (hrows : LinearIndependent K p.matrix.row) {o : Options K}
    (hlt : o.alpha0 < 1) (hrest : 1 - o.alpha0 < o.tol) (htau : d.tau = -1) :
    (firstAdvance p o d).indicators.isCertificate (firstAdvance p o d).point.tau
      (firstAdvance p o d).point.kappa o.tol = true := by
  obtain ⟨hP, hD, hG⟩ := h.infeasibilities_lt hrows hlt hrest
  refine (Bool.or_eq_true _ _).mpr (.inl (Indicators.residualsVanish_iff.2 ⟨hP, hD, hG, ?_⟩))
  have hnext : (firstAdvance p o d).point.tau = 1 - o.alpha0 := by
    change 1 + o.alpha0 * d.tau = _
    rw [htau]
    ring
  rw [hnext, Scalar.greatest_exact]
  exact hrest.trans_le (le_mul_of_one_le_right o.tol_pos.le (le_max_left 1 _))

/-- Where the objectives differ, the test for a solution has not been passed before. -/
theorem certified (hrows : LinearIndependent K p.matrix.row) {o : Options K}
    (hlt : o.alpha0 < 1) (hrest : 1 - o.alpha0 < o.tol) (htau : d.tau = -1)
    (hgap : o.tol < (firstAdvance p o d).indicators.rhoA) (clock : ℕ → K) :
    (Run.standard p o none clock).Certified
      (((Run.standard p o none clock).start ((Point.blindStart p.m p.n).indicators p)).accept
        (firstAdvance p o d)) (p.target ⬝ᵥ (o.alpha0 • d.y)) where
  unsolved := Bool.eq_false_of_not_eq_true fun hsolved =>
    hgap.not_ge (Indicators.isSolved_iff.1 hsolved).2.2
  certificate := h.isCertificate hrows hlt hrest htau
  dot := by
    rw [← zero_add (o.alpha0 • d.y)]
    exact Point.dot_target .off p ((Point.blindStart p.m p.n).move d o.alpha0)

/-- **A solve that decides in its first iteration**, from a straight start. -/
theorem exists_decidedAt (hrows : LinearIndependent K p.matrix.row) {o : Options K}
    (hlt : o.alpha0 < 1) (clock : ℕ → K) {stop : Stop}
    (hreason : (Run.standard p o none clock).Reason
      (((Run.standard p o none clock).start ((Point.blindStart p.m p.n).indicators p)).accept
        (firstAdvance p o d)) false stop)
    (hbreak : stop.status ≠ .numericalError) (hlimit : stop.status ≠ .iterationLimit) :
    ∃ r, (solve p o none clock).result = .ok r ∧ r.status = stop.status ∧
      DecidedAt p o none clock r ((Point.blindStart p.m p.n).move d o.alpha0) := by
  obtain ⟨events, hevents, hloop⟩ := Run.loop_of_reason rfl (h.advance_eq hrows hlt) hreason
    o.maxiter_pos
  obtain ⟨s, answer, w, hends⟩ := exists_solveEnds p o none clock
  obtain ⟨rfl, rfl⟩ := Prod.mk.inj (hends.loop.symm.trans hloop)
  obtain ⟨primal, dual, hresult⟩ :=
    Progress.exists_result p hends.point hends.onPath.tau_pos.ne' o.tol stop
  have hr := hends.result.trans hresult
  obtain ⟨w', hw'⟩ := SelfDual.exists_decidedAt hr hbreak hlimit
  -- The one iteration has led to the point that the solve has decided at.
  have hadvances : (solve p o none clock).advances = [firstAdvance p o d] := by
    rw [hends.advances, Progress.report, Event.advances_append, hevents, List.append_nil]
    exact (Event.advances_append _ _).trans (congrArg (· ++ _) (Run.advances_opening _ _))
  have hpoint := hw'.last_point
  rw [hadvances] at hpoint
  obtain rfl := Point.iterate_injective (Option.some.inj hpoint)
  exact ⟨_, hr, rfl, hw'⟩

end Coordinates

end StraightStart

section OfMatrix

variable {m n : ℕ} {A : Matrix (Fin m) (Fin n) K} {c : Fin n → K} {b : Fin m → K} (hn : 0 < n)
  {d : Point K m n}

/-- A straight start of a program with given data. -/
theorem straightStart_ofMatrix
    (primal : A *ᵥ d.x - d.tau • b = b - A *ᵥ 1) (dual : Aᵀ *ᵥ d.y + d.z - d.tau • c = c - 1)
    (gap : -(c ⬝ᵥ d.x) + b ⬝ᵥ d.y - d.kappa = 1 + ∑ i, c i) (hxz : ∀ i, d.x i + d.z i = -1)
    (htk : d.tau + d.kappa = -1) (products : ∀ i, d.x i * d.z i = 0)
    (number : d.tau * d.kappa = 0) : StraightStart (Problem.ofMatrix A c b hn) d where
  predictor := by
    constructor
    case primal =>
      rw [sub_zero, one_smul, Problem.primal_blindStart, Problem.matrix_ofMatrix,
        Problem.target_ofMatrix]
      exact primal
    case dual =>
      rw [sub_zero, one_smul, Problem.dual_blindStart, Problem.matrix_ofMatrix,
        Problem.cost_ofMatrix]
      exact dual
    case gap =>
      rw [sub_zero, one_mul, Problem.gap_blindStart, Problem.cost_ofMatrix,
        Problem.target_ofMatrix]
      exact gap
    case products =>
      intro i
      simpa [Point.blindStart] using hxz i
    case number => simpa [Point.blindStart] using htk
  products := products
  number := number

/-- The objective of the multipliers after the first iteration. -/
theorem target_firstAdvance_ofMatrix (o : Options K) :
    (Problem.ofMatrix A c b hn).target ⬝ᵥ (o.alpha0 • d.y) = b ⬝ᵥ (o.alpha0 • d.y) :=
  congrArg (· ⬝ᵥ _) (Problem.target_ofMatrix A c b hn)

/-- The relative gap after the first iteration. -/
theorem rhoA_firstAdvance_ofMatrix (o : Options K) :
    (firstAdvance (Problem.ofMatrix A c b hn) o d).indicators.rhoA =
      |c ⬝ᵥ (1 + o.alpha0 • d.x) - b ⬝ᵥ (o.alpha0 • d.y)| /
        (1 + o.alpha0 * d.tau + |b ⬝ᵥ (o.alpha0 • d.y)|) := by
  rw [← zero_add (o.alpha0 • d.y)]
  simp only [firstAdvance, Point.indicators, Problem.cost_ofMatrix, Problem.target_ofMatrix]
  rfl

end OfMatrix

/-- Options that go almost to the boundary, with a tolerance that a straight start meets. -/
def longStep : Options K :=
  { halfStep with
    alpha0 := 999 / 1000
    maxiter := 1
    alpha0_pos := by positivity
    alpha0_le := by norm_num
    maxiter_pos := by decide }

theorem longStep_alpha0 : (longStep : Options K).alpha0 = 999 / 1000 := rfl

theorem longStep_tol : (longStep : Options K).tol = 1 / 100 := rfl

theorem longStep_lt_one : (longStep : Options K).alpha0 < 1 := by
  rw [longStep_alpha0]
  norm_num

theorem longStep_rest_lt : 1 - (longStep : Options K).alpha0 < (longStep : Options K).tol := by
  rw [longStep_alpha0, longStep_tol]
  norm_num

/-! ### Programs with a straight start -/

/-- The identity has a straight start: its multiplier rises while the reduced cost falls. -/
theorem straightStart_identityProgram :
    StraightStart (identityProgram : Problem K) (⟨0, 1, -1, 0, -1⟩ : Point K 1 1) := by
  refine straightStart_ofMatrix Nat.one_pos ?_ ?_ ?_ ?_ ?_ ?_ ?_
  all_goals simp

/-- After one iteration it has a solution. -/
theorem decidedAt_identityProgram :
    ∃ r, (solve (identityProgram : Problem ℝ) longStep none fun _ => 0).result = .ok r ∧
      r.status = .optimal ∧ DecidedAt (identityProgram : Problem ℝ) longStep none (fun _ => 0) r
        ((Point.blindStart 1 1).move ⟨0, 1, -1, 0, -1⟩ (999 / 1000)) := by
  have hstart : StraightStart (identityProgram : Problem ℝ) (⟨0, 1, -1, 0, -1⟩ : Point ℝ 1 1) :=
    straightStart_identityProgram
  obtain ⟨hP, hD, -⟩ :=
    hstart.infeasibilities_lt independent_identityProgram longStep_lt_one longStep_rest_lt
  have hA : (firstAdvance (identityProgram : Problem ℝ) longStep
      (⟨0, 1, -1, 0, -1⟩ : Point ℝ 1 1)).indicators.rhoA ≤ (longStep : Options ℝ).tol := by
    refine (rhoA_firstAdvance_ofMatrix Nat.one_pos longStep).trans_le ?_
    norm_num [longStep_alpha0, longStep_tol, abs_of_pos]
  exact hstart.exists_decidedAt independent_identityProgram longStep_lt_one (fun _ => 0)
    (.solved (Indicators.isSolved_iff.2 ⟨hP.le, hD.le, hA⟩)) (by decide) (by decide)

/-- The program that asks its variable to be minus one. -/
def negativeProgram : Problem K := .ofMatrix (1 : Matrix (Fin 1) (Fin 1) K) 0 (-1) Nat.one_pos

/-- It has a straight start: `tau` falls with its variable. -/
theorem straightStart_negativeProgram :
    StraightStart (negativeProgram : Problem K) (⟨-1, -1, 0, -1, 0⟩ : Point K 1 1) := by
  refine straightStart_ofMatrix Nat.one_pos ?_ ?_ ?_ ?_ ?_ ?_ ?_
  all_goals simp

/-- After one iteration it has a certificate with a multiplier for infeasibility. -/
theorem decidedAt_negativeProgram :
    ∃ r, (solve (negativeProgram : Problem ℝ) longStep none fun _ => 0).result = .ok r ∧
      r.status = .infeasible ∧ DecidedAt (negativeProgram : Problem ℝ) longStep none (fun _ => 0) r
        ((Point.blindStart 1 1).move ⟨-1, -1, 0, -1, 0⟩ (999 / 1000)) := by
  have hrows : LinearIndependent ℝ (negativeProgram : Problem ℝ).matrix.row :=
    Problem.independent_ofMatrix.2 (Problem.independent_ofMatrix.1 independent_identityProgram)
  have hstart : StraightStart (negativeProgram : Problem ℝ) (⟨-1, -1, 0, -1, 0⟩ : Point ℝ 1 1) :=
    straightStart_negativeProgram
  have hgap : (longStep : Options ℝ).tol < (firstAdvance (negativeProgram : Problem ℝ) longStep
      (⟨-1, -1, 0, -1, 0⟩ : Point ℝ 1 1)).indicators.rhoA := by
    refine lt_of_lt_of_eq ?_ (rhoA_firstAdvance_ofMatrix Nat.one_pos longStep).symm
    norm_num [longStep_alpha0, longStep_tol, abs_of_pos]
  have htarget : (longStep : Options ℝ).tol < (negativeProgram : Problem ℝ).target ⬝ᵥ
      ((longStep : Options ℝ).alpha0 • (⟨-1, -1, 0, -1, 0⟩ : Point ℝ 1 1).y) := by
    refine lt_of_lt_of_eq ?_ (target_firstAdvance_ofMatrix Nat.one_pos longStep).symm
    norm_num [longStep_alpha0, longStep_tol]
  have hcertified := hstart.certified hrows longStep_lt_one longStep_rest_lt rfl hgap fun _ => 0
  exact hstart.exists_decidedAt hrows longStep_lt_one (fun _ => 0)
    (.infeasible hcertified htarget) (by decide) (by decide)

/-- The program with a ray, along its first variable; the second one is zero and has the given
cost. -/
def rayProgram (cost : K) : Problem K := .ofMatrix !![0, 1] ![-1, cost] 0 Nat.two_pos

/-- Its straight start: `tau` falls with the second variable and with the reduced cost of the
first. -/
def rayDirection : Point K 1 2 := ⟨![0, -1], ![-1], ![-1, 0], -1, 0⟩

theorem move_rayDirection (alpha : K) : (Point.blindStart 1 2).move rayDirection alpha =
    ⟨![1, 1 - alpha], ![-alpha], ![1 - alpha, 1], 1 - alpha, 1⟩ := by
  refine Point.ext ?x ?y ?z ?tau ?kappa
  case x =>
    funext i
    fin_cases i <;>
      simp [Point.move, Point.blindStart, rayDirection, sub_eq_add_neg, vecHead, vecTail]
  case y => simp [Point.move, Point.blindStart, rayDirection]
  case z =>
    funext i
    fin_cases i <;>
      simp [Point.move, Point.blindStart, rayDirection, sub_eq_add_neg, vecHead, vecTail]
  case tau => simp [Point.move, Point.blindStart, rayDirection, sub_eq_add_neg]
  case kappa => simp [Point.move, Point.blindStart, rayDirection]

theorem straightStart_rayProgram (cost : K) : StraightStart (rayProgram cost) rayDirection := by
  refine straightStart_ofMatrix Nat.two_pos ?primal ?dual ?gap ?sums ?sum ?products ?product
  case primal =>
    funext i
    simp [rayDirection, dotProduct]
  case dual =>
    funext i
    fin_cases i <;> simp [rayDirection, mulVec_transpose, neg_add_eq_sub]
  all_goals simp [rayDirection]

theorem independent_rayProgram (cost : K) : LinearIndependent K (rayProgram cost).matrix.row := by
  refine Problem.independent_ofMatrix.2 ((independent_rows_iff _).2 fun v hv => ?_)
  funext i
  have hi := congrFun hv 1
  simpa [mulVec, dotProduct, Fin.fin_one_eq_zero i] using hi

theorem cost_rayProgram (cost : K) (v : Fin 2 → K) :
    (rayProgram cost).cost ⬝ᵥ v = cost * v 1 - v 0 := by
  have hdot : ![-1, cost] ⬝ᵥ v = cost * v 1 - v 0 := by
    rw [dotProduct, Fin.sum_univ_two]
    simp only [cons_val_zero, cons_val_one]
    ring
  exact (congrArg (· ⬝ᵥ v) (Problem.cost_ofMatrix _ _ _ _)).trans hdot

/-- After one iteration the program with a ray has a certificate without a multiplier, unless the
cost of the second variable makes up for the ray. -/
theorem decidedAt_rayProgram (cost : ℝ) (hgap : 1 / 100 < |cost / 1000 - 1| / (1 / 1000)) :
    ∃ r, (solve (rayProgram cost) longStep none fun _ => 0).result = .ok r ∧
      r.status = .unbounded ∧ DecidedAt (rayProgram cost) longStep none (fun _ => 0) r
        ((Point.blindStart 1 2).move rayDirection (999 / 1000)) := by
  have hstart := straightStart_rayProgram cost
  have hrows := independent_rayProgram cost
  have hA : (longStep : Options ℝ).tol <
      (firstAdvance (rayProgram cost) longStep rayDirection).indicators.rhoA := by
    refine lt_of_lt_of_eq ?_ (rhoA_firstAdvance_ofMatrix Nat.two_pos longStep).symm
    have hcost : -1 + cost * (1 / 1000) = cost / 1000 - 1 := by ring
    norm_num [longStep_alpha0, longStep_tol, rayDirection, vecHead, vecTail]
    rwa [hcost]
  have htarget : ¬(longStep : Options ℝ).tol < (rayProgram cost).target ⬝ᵥ
      ((longStep : Options ℝ).alpha0 • rayDirection.y) := by
    refine (lt_of_lt_of_eq · (target_firstAdvance_ofMatrix Nat.two_pos longStep)).mt ?_
    norm_num [longStep_alpha0, longStep_tol]
  have hcertified := hstart.certified hrows longStep_lt_one longStep_rest_lt rfl hA fun _ => 0
  exact hstart.exists_decidedAt hrows longStep_lt_one (fun _ => 0)
    (.unbounded hcertified htarget) (by decide) (by decide)

end SelfDual
