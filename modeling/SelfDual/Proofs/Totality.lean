import SelfDual.Proofs.Acceptance
import SelfDual.Proofs.Passes
import SelfDual.Proofs.Simulation
import SelfDual.Solve.Request
/-!
**Accepted data are solved.**

All faults of data, settings and device are found before a solve begins.  From then on nothing
fails: products, sums and quotients meet the shapes they need, divisors are not zero, and where an
iteration cannot go on it breaks down, which is a way to stop.  So a solve of accepted data returns
a result, and only the callback can keep it from doing so.

Main results:

* `Run.result_or_refused` — **what keeps a run from returning**: a callback that fails at a snapshot
  it is shown;
* `Iterate.Fits.advance` — an iteration keeps the shapes, for any scalars and any centering;
* `shapes_of_result` — **the shapes of a result**;
* `solve_returns` — **a solve of accepted data returns**, with one of the five statuses;
* `Request.solve_of_accepted` — a request that passes all tests begins its solve.
-/

set_option autoImplicit false

namespace SelfDual

/-! ### Faults after the acceptance -/

namespace Run

variable {R : Type} [Scalar R] {run : Run R} {start : Indicators R}

/-- **Only the callback keeps a run from returning**, if the kernels are sound: then it has failed
at a snapshot that it has been shown. -/
theorem result_or_refused
    (hstart : indicators .off run.problem (.blindStart run.problem.m run.problem.n) = .ok start)
    (hk : run.kernels.Sound run.problem) :
    (∃ r, run.solve.result = .ok r) ∨
      ∃ callback snapshot e, run.callback = some callback ∧
        .observed snapshot ∈ run.solve.events ∧ callback snapshot = .error e := by
  obtain ⟨as, s, answer, hcourse⟩ := run.exists_course start
  rcases hcourse.ok_or_refused hk with
    ⟨stop, rfl⟩ | ⟨before, a, callback, snapshot, e, rfl, -, hcallback, hsnapshot, he⟩
  · obtain ⟨r, hr⟩ := hcourse.exists_result hk
    exact .inl ⟨r, (hcourse.result_solve hstart).trans hr⟩
  · refine .inr ⟨callback, snapshot, e, hcallback, hcourse.mem_events hstart ?_, he⟩
    rw [observed_mem_after_iff]
    exact ⟨by rw [hcallback]; rfl, before.length, a, by simp, hsnapshot⟩

end Run

/-! ### Shapes of results -/

section Shapes

variable {R : Type} [Scalar R] {p : Problem R} {it : Iterate R} {o : Options R}

/-- A search direction that has been found fits. -/
theorem Iterate.Fits.searchDirection {backend : Backend} {beta : R} {d : Direction R}
    (h : it.Fits p) (hd : searchDirection .on (factorize backend) p it beta = .ok d) :
    d.Fits p := by
  obtain ⟨s, pred, alpha, gamma, hpasses⟩ := searchDirection_eq_ok_iff_passes.1 hd
  have hs : s.Fits p it := (NewtonSystem.yields_assemble backend h).of_eq_ok hpasses.system
  have hpred : pred.Fits p := (hs.yields_predictor h).of_eq_ok hpasses.predictor
  exact (hs.yields_corrector h hpred gamma).of_eq_ok hpasses.corrector

/-- **An iteration keeps the shapes**, for any scalars: where the square in the centering rule is
too large, there is no iteration. -/
theorem Iterate.Fits.advance {a : Advance R} (h : it.Fits p)
    (ha : (Kernels.standard p o).advance it = .ok a) : a.point.Fits p := by
  obtain ⟨d, hd, ha⟩ := exists_of_bind ha
  obtain ⟨alpha, -, ha⟩ := exists_of_bind ha
  obtain ⟨trial, htrial, ha⟩ := exists_of_bind ha
  have hdirection : d.Fits p := h.searchDirection hd
  have hfits : trial.Fits p := (h.yields_move hdirection alpha).of_eq_ok htrial
  split at ha
  · obtain ⟨measured, -, ha⟩ := exists_of_bind ha
    cases ha
    exact hfits
  · cases ha

variable {callback : Option (Callback R)} {clock : ℕ → R} {r : Result R}

/-- The point that a result is formed at fits. -/
theorem exists_fits_of_result (hr : (solve p o callback clock).result = .ok r) :
    ∃ (s : Progress R) (stop : Stop), s.point.Fits p ∧ s.result p o.tol stop = .ok r := by
  obtain ⟨start, as, s, -, hcourse, hresult⟩ := Run.exists_course_of_result hr
  refine ⟨s, r.stop, ?_, hresult⟩
  exact hcourse.path.invariant (Iterate.fits_blindStart p) fun it a hfits ha => hfits.advance ha

/-- **What a solve returns has the shapes of the program.** -/
theorem shapes_of_result (hr : (solve p o callback clock).result = .ok r) :
    r.x.shape = [p.n] ∧ r.y.shape = [p.m] ∧ r.z.shape = [p.n] := by
  obtain ⟨s, stop, hfits, hresult⟩ := exists_fits_of_result hr
  obtain ⟨x, y, z, primal, dual, normPrimal, normDual, hx, hy, hz, -, -, -, -, rfl⟩ :=
    Progress.exists_of_result hresult
  -- The parts of the point have been divided by a single number.
  have hquotient : ∀ {t t' : Tensor R} {k : ℕ}, t.shape = [k] →
      Tensor.div .off t (.scalar s.point.tau) = .ok t' → t'.shape = [k] := by
    intro t t' k ht ht'
    exact (Tensor.yields_scalar_right ht (Tensor.shape_scalar _)).of_eq_ok ht'
  exact ⟨(Tensor.shape_map _ x).trans (hquotient hfits.x hx), hquotient hfits.y hy,
    hquotient hfits.z hz⟩

end Shapes

section Exact

variable {K : Type} [ExactField K] {p : Problem K} {o : Options K} {callback : Option (Callback K)}
  {clock : ℕ → K}

/-- A solve that returns has begun an iteration, and no more than the options allow. -/
theorem nit_of_result {r : Result K} (hr : (solve p o callback clock).result = .ok r) :
    1 ≤ r.nit ∧ r.nit ≤ o.maxiter := by
  obtain ⟨start, as, s, -, hcourse, hresult⟩ :=
    (Run.standard p o callback clock).exists_course_of_result hr
  rw [(Progress.fields_of_result hresult).2.1]
  exact hcourse.nit_bounds

variable (o callback clock) in
/-- **A solve of accepted data returns a result** with one of the five statuses and the shapes of
the data, after one iteration at least and as many as the options allow at most.  This holds for
data without constraints and for data with more constraints than variables, for all options, and
for every callback that answers at the snapshots it is shown. -/
theorem solve_returns {c A b : Tensor K} (haccept : Problem.accept c A b = .ok p)
    (hanswers : ∀ answer snapshot, callback = some answer →
      .observed snapshot ∈ (solve p o callback clock).events →
      ∃ wish, answer snapshot = .ok wish) :
    ∃ r, (solve p o callback clock).result = .ok r ∧ r.status ∈ Status.all ∧
      r.x.shape = c.shape ∧ r.y.shape = b.shape ∧ r.z.shape = c.shape ∧
      1 ≤ r.nit ∧ r.nit ≤ o.maxiter := by
  obtain ⟨hc, -, hb⟩ := Problem.fields_of_accept haccept
  rcases Run.result_or_refused (Run.start_standard p o callback clock)
    (Run.kernels_standard p o callback clock) with
    ⟨r, hr⟩ | ⟨answer, snapshot, e, hcallback, hobserved, he⟩
  · obtain ⟨hx, hy, hz⟩ := shapes_of_result hr
    rw [← hc, ← hb, p.shape_c, p.shape_b]
    exact ⟨r, hr, r.status.mem_all, hx, hy, hz, nit_of_result hr⟩
  · obtain ⟨wish, hwish⟩ := hanswers answer snapshot hcallback hobserved
    cases hwish.symm.trans he

/-- A solve of one variable and no constraints, with a callback that asks to stop after the first
iteration. -/
theorem solve_returns_without_constraints :
    ∃ p : Problem ℝ, Problem.accept (.full [1] 1) (.full [0] 0) (.full [0] 0) = .ok p ∧
      ∃ r, (solve p halfStep (some fun snapshot => .ok (snapshot.nit == 1)) fun _ => 0).result =
          .ok r ∧
        r.status ∈ Status.all ∧ r.x.shape = [1] ∧ r.y.shape = [0] := by
  obtain ⟨p, haccept⟩ : ∃ p : Problem ℝ,
      Problem.accept (.full [1] 1) (.full [0] 0) (.full [0] 0) = .ok p :=
    Problem.exists_accept Nat.one_pos rfl rfl rfl (Tensor.isFinite_exact _)
      (Tensor.isFinite_exact _) (Tensor.isFinite_exact _)
  obtain ⟨r, hr, hstatus, hx, hy, -⟩ := solve_returns halfStep
    (some fun snapshot => .ok (snapshot.nit == 1)) (fun _ => 0) haccept
    fun answer snapshot hcallback _ => by
      cases hcallback
      exact ⟨_, rfl⟩
  exact ⟨p, haccept, r, hr, hstatus, hx, hy⟩

end Exact

/-! ### Requests -/

/-- **A request that passes all tests begins its solve**: the tests of its settings, of its data and
of its device are the only ones.  It ends as the solve does if the tolerance is a double. -/
theorem Request.solve_of_accepted {r : Request} {settings : Settings} {p : Problem Float}
    {o : Options Float} (hsettings : r.settings = .ok (some settings))
    (hproblem : Problem.ofValues r.c r.A r.b = .ok p) (hoptions : settings.accept = .ok o)
    (hdevice : o.backend = .device → ∃ device, Device.resolve settings.device = .ok device) :
    ∃ outcome, r.solve = .ok outcome ∧
      outcome.events = (SelfDual.solve p o r.callback r.clock).events ∧
      ∀ entry, settings.tol.toEntry = .ok entry →
        outcome = SelfDual.solve p o r.callback r.clock := by
  have hsolve : r.solve =
      (settings.tol.toEntry.map fun _ => SelfDual.solve p o r.callback r.clock).tryCatch
        fun e => .ok ((SelfDual.solve p o r.callback r.clock).fail e) := by
    rw [solve, hsettings, ok_bind, hproblem, ok_bind]
    dsimp only
    rw [hoptions, ok_bind]
    by_cases hbackend : o.backend = .device
    · obtain ⟨device, hresolve⟩ := hdevice hbackend
      rw [if_pos hbackend, hresolve]
      cases settings.tol.toEntry <;> rfl
    · rw [if_neg hbackend]
      cases settings.tol.toEntry <;> rfl
  rw [hsolve]
  cases settings.tol.toEntry with
  | ok entry => exact ⟨_, rfl, rfl, fun _ _ => rfl⟩
  | error e => exact ⟨_, rfl, rfl, fun _ h => by cases h⟩

end SelfDual
