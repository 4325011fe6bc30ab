import SelfDual.Proofs.Solves
/-!
**When a solve breaks down.**

That the rows of the constraints are independent is not asked of a program.  If they are not, the
normal equations are singular and the first iteration breaks down; if they are, and `alpha0` is
below one, all points stay positive and no iteration breaks down, in a solve of any length.

Main results:

* `solve_of_dependent` — **a solve with dependent rows** returns the blind start;
* `OnPath.exists_advance` — with independent rows every iteration is accepted;
* `exists_callback_of_error` — nothing else fails but the callback;
* `breakdown_iff_dependent` — **a solve breaks down exactly for dependent rows**.
-/

set_option autoImplicit false

open Matrix

namespace SelfDual

variable {K : Type} [ExactField K]

/-! ### Dependent rows -/

/-- With dependent rows the first iteration breaks down. -/
theorem exists_breakdown_of_dependent {p : Problem K} (o : Options K)
    (hrows : ¬LinearIndependent K p.matrix.row) :
    ∃ b, (Kernels.standard p o).advance (.blindStart p.m p.n) = .error (.breakdown b) := by
  rw [← Point.iterate_blindStart]
  rcases advance_cases p o (onPath_blindStart p o).nonneg with
    ⟨d, alpha, -, hiteration⟩ | ⟨b, hb, -⟩
  · exact absurd hiteration.independent hrows
  · exact ⟨b, hb⟩

/-- The blind start, with its small entries set to zero. -/
theorem snap_one (n : ℕ) (tol : K) :
    snap tol (.ofVector fun _ : Fin n => 1) = .full [n] (if 1 < tol then 0 else 1) := by
  rw [Tensor.full_vector]
  exact Tensor.map_ofVector _ _

/-- **A solve with dependent rows** ends in its first iteration and returns the blind start. -/
theorem solve_of_dependent {p : Problem K} (o : Options K)
    (hrows : ¬LinearIndependent K p.matrix.row) (callback : Option (Callback K)) (clock : ℕ → K) :
    ∃ r, (solve p o callback clock).result = .ok r ∧ r.status = .numericalError ∧ r.nit = 1 ∧
      r.history = [] ∧ r.y = .full [p.m] 0 ∧ r.z = .full [p.n] 1 ∧
      r.objective = ∑ i, p.cost i ∧ r.x = .full [p.n] (if 1 < o.tol then 0 else 1) := by
  obtain ⟨b, hb⟩ := exists_breakdown_of_dependent o hrows
  let run := Run.standard p o callback clock
  let start := run.start ((Point.blindStart p.m p.n).indicators p)
  have hloop : run.loop run.options.maxiter start = (start.breakDown b, .ok .breakdown) :=
    Run.loop_of_breakdown hb o.maxiter_pos
  have hpoint : (start.breakDown b).point = (Point.blindStart p.m p.n).iterate :=
    (Point.iterate_blindStart p.m p.n).symm
  obtain ⟨primal, dual, hresult⟩ := Progress.exists_result p hpoint one_ne_zero o.tol .breakdown
  have hsolve : (solve p o callback clock).result =
      (start.breakDown b).result p o.tol .breakdown := by
    rw [solve_eq, Run.solveFrom, hloop]
    rfl
  have hone : ((1 : K)⁻¹ • (1 : Fin p.n → K)) = fun _ => 1 := by
    rw [inv_one, one_smul]
    rfl
  have hzero : ((1 : K)⁻¹ • (0 : Fin p.m → K)) = fun _ => 0 := smul_zero _
  rw [hsolve]
  refine ⟨_, hresult, rfl, rfl, rfl, ?_, ?_, ?_, ?_⟩
  · exact (congrArg Tensor.ofVector hzero).trans (Tensor.full_vector 0).symm
  · exact (congrArg Tensor.ofVector hone).trans (Tensor.full_vector 1).symm
  · change p.cost ⬝ᵥ ((1 : K)⁻¹ • (1 : Fin p.n → K)) = _
    rw [inv_one, one_smul, dotProduct_one]
  · exact (congrArg (fun v => snap o.tol (.ofVector v)) hone).trans (snap_one p.n o.tol)

/-! ### Independent rows -/

/-- With independent rows and `alpha0` below one every iteration is accepted. -/
theorem OnPath.exists_advance {p : Problem K} {o : Options K} {w : Point K p.m p.n}
    (h : OnPath p o w) (hlt : o.alpha0 < 1) (hrows : LinearIndependent K p.matrix.row) :
    ∃ a, (Kernels.standard p o).advance w.iterate = .ok a := by
  rcases advance_cases p o h.nonneg with ⟨d, alpha, hd, -⟩ | ⟨b, -, hdependent⟩
  · exact ⟨_, hd⟩
  · exact absurd hrows (hdependent hlt (h.positive hlt))

/-- A decision can always be made. -/
theorem exists_verdict (p : Problem K) (o : Options K) (callback : Option (Callback K))
    (clock : ℕ → K) {s : Progress K} {w : Point K p.m p.n} (hs : s.point = w.iterate)
    (wish : Bool) :
    ∃ decision, (Run.standard p o callback clock).verdict s wish = .ok decision := by
  have hdot : Tensor.dot .off p.b s.point.y = .ok (p.target ⬝ᵥ w.y) := by
    rw [hs]
    exact Point.dot_target .off p w
  rw [Run.verdict]
  split
  · exact ⟨_, rfl⟩
  split
  · refine ⟨some (if o.tol < p.target ⬝ᵥ w.y then .infeasible else .unbounded), ?_⟩
    change (Tensor.dot .off p.b s.point.y >>= _) = _
    rw [hdot, ok_bind]
    rfl
  · split
    · exact ⟨_, rfl⟩
    split
    · exact ⟨_, rfl⟩
    split <;> exact ⟨_, rfl⟩

/-- **Nothing but the callback fails**: if a solve has no result, the callback has failed. -/
theorem exists_callback_of_error {p : Problem K} {o : Options K} {callback : Option (Callback K)}
    {clock : ℕ → K} {e : Error} (he : (solve p o callback clock).result = .error e) :
    ∃ answer snapshot, callback = some answer ∧ answer snapshot = .error e := by
  obtain ⟨s, answer, w, hends⟩ := exists_solveEnds p o callback clock
  have htau : w.tau ≠ 0 := hends.onPath.tau_pos.ne'
  rw [hends.result] at he
  cases answer with
  | ok stop =>
    obtain ⟨primal, dual, hs⟩ := Progress.exists_result p hends.point htau o.tol stop
    rw [Except.bind, hs] at he
    cases he
  | error e' =>
    obtain rfl := Except.error.inj he
    -- An iteration can only break down, and at the end of a path nothing else can fail.
    cases hends.ending with
    | fault reached h hne =>
      rcases advance_cases p o hends.onPath.nonneg with ⟨d, alpha, hd, -⟩ | ⟨b, hb, -⟩
      · exact absurd (h.symm.trans ((congrArg _ hends.point).trans hd)) (by simp)
      · have hbreak := h.symm.trans ((congrArg _ hends.point).trans hb)
        exact absurd (Except.error.inj hbreak) (hne b)
    | solution reached h =>
      rw [hends.point, Point.solution_exact .off htau] at h
      cases h
    | callback reached hcallback h => exact ⟨_, _, hcallback, h⟩
    | verdict reached h =>
      obtain ⟨decision, hdecision⟩ := exists_verdict p o callback clock hends.point _
      rw [hdecision] at h
      cases h

/-! ### Both cases -/

/-- A solve is numerically at fault only if it stops for a breakdown. -/
theorem Stop.eq_breakdown_of_status {stop : Stop} (h : stop.status = .numericalError) :
    stop = .breakdown := by
  cases stop <;> first | rfl | cases h

/-- **A solve breaks down exactly for dependent rows**, if `alpha0` is below one.  Then it ends in
the first iteration with the blind start for its result.  With independent rows no iteration breaks
down, however long the solve is, and if there is no result the callback has failed. -/
theorem breakdown_iff_dependent (p : Problem K) (o : Options K) (hlt : o.alpha0 < 1)
    (callback : Option (Callback K)) (clock : ℕ → K) :
    ((∃ r, (solve p o callback clock).result = .ok r ∧ r.status = .numericalError) ↔
      ¬LinearIndependent K p.matrix.row) ∧
    (¬LinearIndependent K p.matrix.row →
      ∃ r, (solve p o callback clock).result = .ok r ∧ r.status = .numericalError ∧ r.nit = 1 ∧
        r.history = [] ∧ r.y = .full [p.m] 0 ∧ r.z = .full [p.n] 1 ∧
        r.objective = ∑ i, p.cost i ∧ r.x = .full [p.n] (if 1 < o.tol then 0 else 1)) ∧
    (LinearIndependent K p.matrix.row →
      (∀ nit b, .brokeDown nit b ∉ (solve p o callback clock).events) ∧
      ∀ e, (solve p o callback clock).result = .error e →
        ∃ answer snapshot, callback = some answer ∧ answer snapshot = .error e) := by
  obtain ⟨s, answer, w, hends⟩ := exists_solveEnds p o callback clock
  -- With independent rows the point where the solve ends could be left by one more iteration.
  have hadvance : LinearIndependent K p.matrix.row →
      ∀ b, (Kernels.standard p o).advance w.iterate ≠ .error (.breakdown b) := by
    intro hrows b hb
    obtain ⟨a, ha⟩ := hends.onPath.exists_advance hlt hrows
    rw [ha] at hb
    cases hb
  refine ⟨⟨?_, fun hrows => ?_⟩, fun hrows => solve_of_dependent o hrows callback clock,
    fun hrows => ⟨fun nit b hmem => ?_, fun e he => exists_callback_of_error he⟩⟩
  · rintro ⟨r, hr, hstatus⟩ hrows
    obtain ⟨stop, primal, dual, rfl, rfl⟩ := hends.exists_of_result hr
    obtain rfl := Stop.eq_breakdown_of_status hstatus
    obtain ⟨b, hb⟩ := hends.ending.exists_breakdown
    exact hadvance hrows b (hends.point ▸ hb)
  · obtain ⟨r, hr, hstatus, -⟩ := solve_of_dependent o hrows callback clock
    exact ⟨r, hr, hstatus⟩
  · exact hadvance hrows b (hends.brokeDown nit b hmem)

/-- The program with one constraint that does not bind any variable. -/
def zeroRowProgram : Problem K := .ofMatrix (of fun _ _ : Fin 1 => (0 : K)) 1 1 Nat.one_pos

theorem dependent_zeroRowProgram :
    ¬LinearIndependent K (zeroRowProgram : Problem K).matrix.row := by
  intro h
  have hzero := (independent_rows_iff _).1 (Problem.independent_ofMatrix.1 h)
  have hone : (1 : Fin 1 → K) = 0 := hzero 1 (funext fun i => by simp [mulVec, dotProduct])
  exact one_ne_zero (congrFun hone 0)

/-- Options that take half of the step to the boundary. -/
def halfStep : Options K where
  alpha0 := 1 / 2
  beta := 1 / 10
  maxiter := 1000
  tol := 1 / 100
  verbose := false
  backend := .host
  timeLimit := none
  alpha0_pos := by positivity
  alpha0_le := by norm_num
  beta_pos := by positivity
  beta_lt := by norm_num
  maxiter_pos := by decide
  tol_pos := by positivity
  timeLimit_pos := by simp

/-- A zero row breaks a solve down, and the row of an identity does not. -/
theorem breakdown_iff_dependent_zeroRowProgram :
    (halfStep : Options ℝ).alpha0 < 1 ∧
      (∃ r, (solve (zeroRowProgram : Problem ℝ) halfStep none fun _ => 0).result = .ok r ∧
        r.status = .numericalError) ∧
      ∀ nit b, .brokeDown nit b ∉
        (solve (identityProgram : Problem ℝ) halfStep none fun _ => 0).events := by
  have hlt : (halfStep : Options ℝ).alpha0 < 1 := by
    norm_num [halfStep]
  have hzero := breakdown_iff_dependent (zeroRowProgram : Problem ℝ) halfStep hlt none fun _ => 0
  have hone := breakdown_iff_dependent (identityProgram : Problem ℝ) halfStep hlt none fun _ => 0
  exact ⟨hlt, hzero.1.2 dependent_zeroRowProgram, (hone.2.2 independent_identityProgram).1⟩

end SelfDual
