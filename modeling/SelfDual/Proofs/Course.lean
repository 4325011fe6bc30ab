import SelfDual.Proofs.FirstIteration
import SelfDual.Proofs.Shapes
/-!
**The course of a solve.**

Where a loop stands is determined by the iterations that it has accepted: by their number, the last
point, the indicators of all, and what has been reported of each.  So a loop can be followed without
its recursion.  It goes on after some iterations, and then the next one ends it: by breaking down,
or by giving the first of the reasons to stop.

Main definitions:

* `Run.after` — where a loop stands after some accepted iterations;
* `Run.Continues` — iterations after each of which a loop goes on;
* `Run.Course` — **the ways in which the next iteration ends it**;
* `Run.Sound` — a run with sound kernels and a callback that always answers;
* `Kernels.counting`, `Run.counting` — kernels that break down after a number of iterations, and
  their run.

Main results:

* `Run.observe_accept` — a report, and the answer of the callback;
* `Run.verdict_eq_none_iff` — when a loop goes on;
* `Run.exists_course`, `Run.loop_of_course` — **every loop has a course**, and it is what the loop
  computes;
* `Run.Course.ok_or_refused` — with sound kernels nothing fails but the callback;
* `Progress.result_congr` — the result depends on the point, its indicators and the history;
* `Run.exists_course_of_result` — the course of a solve that has a result;
* `Run.Sound.exists_course`, `Run.sound_standard` — **sound runs stop**, and every solve in exact
  arithmetic is one, if its callback always answers.
-/

set_option autoImplicit false

namespace SelfDual

variable {R : Type} [Scalar R]

/-! ### Reports -/

/-- What a callback is shown of an accepted iteration. -/
def Advance.snapshot (nit : Nat) (a : Advance R) : Except Error (Snapshot R) := do
  return { nit, alpha := a.alpha, indicators := a.indicators, x := ← a.point.solution .off }

namespace Run

/-- What is shown of an accepted iteration: the printed row, and what the callback is shown. -/
def shown (run : Run R) (nit : Nat) (a : Advance R) : List (Event R) :=
  (if run.options.verbose then [.row a.indicators (some a.alpha)] else []) ++
    match run.callback, a.snapshot nit with
    | some _, .ok snapshot => [.observed snapshot]
    | _, _ => []

/-- The wish of the callback to stop after an accepted iteration. -/
def wish (run : Run R) (nit : Nat) (a : Advance R) : Except Error Bool :=
  match run.callback with
  | none => .ok false
  | some answer => a.snapshot nit >>= answer

/-- **A report** shows the iteration, and gives the wish of the callback. -/
theorem observe_accept (run : Run R) (s : Progress R) (a : Advance R) :
    run.observe (s.accept a) a.alpha =
      ((s.accept a).report (run.shown (s.nit + 1) a), run.wish (s.nit + 1) a) := by
  rw [observe, shown, wish, Advance.snapshot]
  cases run.callback with
  | none => simp [Progress.report, Progress.accept]
  | some answer =>
    cases hx : a.point.solution .off with
    | error e => simp [Progress.report, Progress.accept, hx]
    | ok x => simp [Progress.report, Progress.accept, hx, pure, Except.pure]

end Run

/-! ### States -/

namespace Run

/-- What has been reported of some accepted iterations. -/
def rounds (run : Run R) (as : List (Advance R)) : List (Event R) :=
  (as.mapIdx fun i a => .iterated (i + 1) a :: run.shown (i + 1) a).flatten

/-- **Where a loop stands** after some accepted iterations. -/
def after (run : Run R) (start : Indicators R) (as : List (Advance R)) : Progress R where
  nit := as.length
  point := (as.getLast?.map (·.point)).getD (.blindStart run.problem.m run.problem.n)
  indicators := (as.getLast?.map (·.indicators)).getD start
  history := as.map (·.indicators)
  events := run.opening start ++ run.rounds as

variable {run : Run R} {start : Indicators R} {as : List (Advance R)} {a : Advance R}

theorem after_nil (run : Run R) (start : Indicators R) : run.after start [] = run.start start := by
  simp [after, Run.start, rounds]

theorem rounds_snoc (run : Run R) (as : List (Advance R)) (a : Advance R) :
    run.rounds (as ++ [a]) =
      run.rounds as ++ .iterated (as.length + 1) a :: run.shown (as.length + 1) a := by
  simp [rounds, List.mapIdx_append]

/-- One more iteration is accepted and reported. -/
theorem after_snoc (run : Run R) (start : Indicators R) (as : List (Advance R)) (a : Advance R) :
    run.after start (as ++ [a]) =
      ((run.after start as).accept a).report (run.shown (as.length + 1) a) := by
  simp [after, rounds_snoc, Progress.accept, Progress.report]

theorem point_after_snoc (run : Run R) (start : Indicators R) (as : List (Advance R))
    (a : Advance R) : (run.after start (as ++ [a])).point = a.point := by
  simp [after]

/-! ### Going on -/

/-- **A loop goes on**: no reason to stop applies. -/
structure Proceeds (run : Run R) (s : Progress R) (wish : Bool) : Prop where
  undecided : run.Undecided s
  below : s.nit < run.options.maxiter
  unwished : wish = false
  inTime : run.timeIsUp s.nit = false

theorem verdict_eq_none_iff {s : Progress R} {wish : Bool} :
    run.verdict s wish = .ok none ↔ run.Proceeds s wish := by
  constructor
  · intro h
    rw [verdict] at h
    split at h
    · cases h
    next hsolved =>
      split at h
      · obtain ⟨dualObjective, -, hstop⟩ := exists_of_bind h
        cases hstop
      next hcertificate =>
        split at h
        · cases h
        next hlimit =>
          split at h
          · cases h
          next hwish =>
            split at h
            · cases h
            next htime =>
              exact ⟨⟨Bool.eq_false_of_not_eq_true hsolved,
                Bool.eq_false_of_not_eq_true hcertificate⟩, Nat.lt_of_not_le hlimit,
                Bool.eq_false_of_not_eq_true hwish, Bool.eq_false_of_not_eq_true htime⟩
  · rintro ⟨⟨hsolved, hcertificate⟩, hbelow, rfl, htime⟩
    simp [verdict, hsolved, hcertificate, Nat.not_le_of_lt hbelow, htime]

/-- **Iterations after each of which a loop goes on.** -/
inductive Continues (run : Run R) (start : Indicators R) : List (Advance R) → Prop where
  | nil : Continues run start []
  | snoc {as : List (Advance R)} {a : Advance R} {wish : Bool} (before : Continues run start as)
      (step : run.kernels.advance (run.after start as).point = .ok a)
      (answer : run.wish (as.length + 1) a = .ok wish)
      (proceeds : run.Proceeds (run.after start (as ++ [a])) wish) :
      Continues run start (as ++ [a])

/-- There are iterations left. -/
theorem Continues.length_lt (h : run.Continues start as) : as.length < run.options.maxiter := by
  cases h with
  | nil => exact run.options.maxiter_pos
  | snoc before step answer proceeds => exact proceeds.below

/-! ### Courses -/

/-- **The course of a loop**: it has gone on after some iterations, and the next one breaks down or
gives a reason to stop; or something fails that is not a breakdown. -/
inductive Course (run : Run R) (start : Indicators R) :
    List (Advance R) → Progress R → Except Error Stop → Prop where
  | breakdown {as : List (Advance R)} {b : Breakdown} (before : run.Continues start as)
      (step : run.kernels.advance (run.after start as).point = .error (.breakdown b)) :
      Course run start as ((run.after start as).breakDown b) (.ok .breakdown)
  | decision {as : List (Advance R)} {a : Advance R} {wish : Bool} {stop : Stop}
      (before : run.Continues start as)
      (step : run.kernels.advance (run.after start as).point = .ok a)
      (answer : run.wish (as.length + 1) a = .ok wish)
      (reason : run.Reason (run.after start (as ++ [a])) wish stop) :
      Course run start (as ++ [a]) (run.after start (as ++ [a])) (.ok stop)
  | fault {as : List (Advance R)} {e : Error} (before : run.Continues start as)
      (step : run.kernels.advance (run.after start as).point = .error e)
      (hne : ∀ b, e ≠ .breakdown b) : Course run start as (run.after start as) (.error e)
  | refused {as : List (Advance R)} {a : Advance R} {e : Error} (before : run.Continues start as)
      (step : run.kernels.advance (run.after start as).point = .ok a)
      (answer : run.wish (as.length + 1) a = .error e) :
      Course run start (as ++ [a]) (run.after start (as ++ [a])) (.error e)
  | verdict {as : List (Advance R)} {a : Advance R} {wish : Bool} {e : Error}
      (before : run.Continues start as)
      (step : run.kernels.advance (run.after start as).point = .ok a)
      (answer : run.wish (as.length + 1) a = .ok wish)
      (h : run.verdict (run.after start (as ++ [a])) wish = .error e) :
      Course run start (as ++ [a]) (run.after start (as ++ [a])) (.error e)

/-- A breakdown changes nothing but the number of the iteration and the events. -/
theorem Course.fields_eq {s : Progress R} {answer : Except Error Stop}
    (h : run.Course start as s answer) :
    s.point = (run.after start as).point ∧ s.indicators = (run.after start as).indicators ∧
      s.history = as.map (·.indicators) := by
  cases h <;> exact ⟨rfl, rfl, rfl⟩

/-- The number of iterations, one of which may have broken down. -/
theorem Course.nit_cases {s : Progress R} {stop : Stop} (h : run.Course start as s (.ok stop)) :
    (stop = .breakdown ∧ s.nit = as.length + 1) ∨ (stop ≠ .breakdown ∧ s.nit = as.length) := by
  cases h with
  | breakdown before step => exact .inl ⟨rfl, rfl⟩
  | decision before step answer reason =>
    refine .inr ⟨?_, rfl⟩
    rintro rfl
    cases reason

theorem Course.nit_bounds {s : Progress R} {stop : Stop} (h : run.Course start as s (.ok stop)) :
    1 ≤ s.nit ∧ s.nit ≤ run.options.maxiter := by
  cases h with
  | breakdown before step => exact ⟨Nat.le_add_left 1 _, before.length_lt⟩
  | @decision as a wish stop before step answer reason =>
    have hnit : (run.after start (as ++ [a])).nit = as.length + 1 := List.length_append
    rw [hnit]
    exact ⟨Nat.le_add_left 1 _, before.length_lt⟩

/-- **Every loop has a course.** -/
theorem exists_course (run : Run R) (start : Indicators R) :
    ∃ as s answer, run.Course start as s answer := by
  -- After each iteration the loop stops, or it goes on with one iteration less.
  have hcourse : ∀ left as, run.Continues start as → as.length + left = run.options.maxiter →
      ∃ as s answer, run.Course start as s answer := by
    intro left
    induction left with
    | zero => exact fun as h hlength => absurd h.length_lt (by omega)
    | succ left ih =>
      intro as h hlength
      cases step : run.kernels.advance (run.after start as).point with
      | error e =>
        cases e with
        | breakdown b => exact ⟨_, _, _, .breakdown h step⟩
        | _ => exact ⟨_, _, _, .fault h step (by simp)⟩
      | ok a =>
        cases answer : run.wish (as.length + 1) a with
        | error e => exact ⟨_, _, _, .refused h step answer⟩
        | ok wish =>
          cases hverdict : run.verdict (run.after start (as ++ [a])) wish with
          | error e => exact ⟨_, _, _, .verdict h step answer hverdict⟩
          | ok decision =>
            cases decision with
            | some stop =>
              exact ⟨_, _, _, .decision h step answer (reason_of_verdict hverdict)⟩
            | none =>
              refine ih (as ++ [a]) (.snoc h step answer (verdict_eq_none_iff.1 hverdict)) ?_
              rw [List.length_append, List.length_singleton]
              omega
  exact hcourse _ [] .nil (Nat.zero_add _)

/-- One turn of a loop that accepts an iteration. -/
theorem loop_of_accept (step : run.kernels.advance (run.after start as).point = .ok a)
    (left : Nat) : run.loop (left + 1) (run.after start as) =
      match run.wish (as.length + 1) a with
      | .error e => (run.after start (as ++ [a]), .error e)
      | .ok wish =>
        match run.verdict (run.after start (as ++ [a])) wish with
        | .error e => (run.after start (as ++ [a]), .error e)
        | .ok (some stop) => (run.after start (as ++ [a]), .ok stop)
        | .ok none => run.loop left (run.after start (as ++ [a])) := by
  have hobserve : run.observe ((run.after start as).accept a) a.alpha =
      (run.after start (as ++ [a]), run.wish (as.length + 1) a) := by
    rw [after_snoc]
    exact run.observe_accept _ a
  rw [loop, step]
  dsimp only
  rw [hobserve]
  cases run.wish (as.length + 1) a <;> rfl

/-- A loop that goes on has used up the iterations that it has accepted. -/
theorem Continues.loop_eq (h : run.Continues start as) :
    run.loop run.options.maxiter (run.start start) =
      run.loop (run.options.maxiter - as.length) (run.after start as) := by
  induction h with
  | nil => rw [after_nil, List.length_nil, Nat.sub_zero]
  | @snoc as a wish before step answer proceeds ih =>
    have hleft : run.options.maxiter - as.length =
        run.options.maxiter - (as ++ [a]).length + 1 := by
      have hlt := before.length_lt
      rw [List.length_append, List.length_singleton]
      omega
    rw [ih, hleft, loop_of_accept step, answer]
    dsimp only
    rw [verdict_eq_none_iff.2 proceeds]

/-- **The course of a loop is what the loop computes.** -/
theorem loop_of_course {s : Progress R} {answer : Except Error Stop}
    (h : run.Course start as s answer) :
    run.loop run.options.maxiter (run.start start) = (s, answer) := by
  -- There is an iteration left for the one that ends the loop.
  have hleft : ∀ {as}, run.Continues start as →
      ∃ left, run.loop run.options.maxiter (run.start start) =
        run.loop (left + 1) (run.after start as) := by
    intro as before
    refine ⟨run.options.maxiter - as.length - 1, ?_⟩
    rw [before.loop_eq, Nat.sub_add_cancel (Nat.sub_pos_of_lt before.length_lt)]
  cases h with
  | breakdown before step =>
    obtain ⟨left, hloop⟩ := hleft before
    rw [hloop, loop, step]
  | decision before step answer reason =>
    obtain ⟨left, hloop⟩ := hleft before
    rw [hloop, loop_of_accept step, answer]
    dsimp only
    rw [verdict_eq_iff.2 reason]
  | @fault as e before step hne =>
    obtain ⟨left, hloop⟩ := hleft before
    rw [hloop, loop, step]
    cases e with
    | breakdown b => exact absurd rfl (hne b)
    | _ => rfl
  | refused before step answer =>
    obtain ⟨left, hloop⟩ := hleft before
    rw [hloop, loop_of_accept step, answer]
  | verdict before step answer h =>
    obtain ⟨left, hloop⟩ := hleft before
    rw [hloop, loop_of_accept step, answer]
    dsimp only
    rw [h]

/-! ### Solves -/

/-- **The solve** of a loop that stops. -/
theorem Course.solve_eq {s : Progress R} {stop : Stop} (h : run.Course start as s (.ok stop))
    (hstart : indicators .off run.problem (.blindStart run.problem.m run.problem.n) = .ok start) :
    run.solve =
      ⟨s.events ++ [.closed s.nit stop.message], s.result run.problem run.options.tol stop⟩ := by
  rw [solve, hstart]
  dsimp only
  rw [solveFrom, loop_of_course h]

/-! ### Sound runs -/

/-- **A sound run**: the blind start has indicators, the kernels keep the shapes of the program and
fail only by breaking down, and the callback always answers. -/
structure Sound (run : Run R) (start : Indicators R) : Prop where
  start : indicators .off run.problem (.blindStart run.problem.m run.problem.n) = .ok start
  kernels : run.kernels.Sound run.problem
  answers : ∀ answer, run.callback = some answer →
    ∀ snapshot, ∃ wish, answer snapshot = .ok wish

/-- Where a loop stands its parts fit, if they do at all points that it has reached. -/
theorem fits_after (start : Indicators R) (h : ∀ a ∈ as, a.point.Fits run.problem) :
    (run.after start as).point.Fits run.problem := by
  cases hlast : as.getLast? with
  | none =>
    simp only [after, hlast]
    exact Iterate.fits_blindStart run.problem
  | some a =>
    simp only [after, hlast]
    exact h a (List.mem_of_getLast? hlast)

theorem fits_snoc (hk : run.kernels.Sound run.problem) (h : ∀ a ∈ as, a.point.Fits run.problem)
    (step : run.kernels.advance (run.after start as).point = .ok a) :
    ∀ a' ∈ as ++ [a], a'.point.Fits run.problem := by
  intro a' ha'
  rcases List.mem_append.1 ha' with hold | hlast
  · exact h a' hold
  · rw [List.mem_singleton.1 hlast]
    exact hk.fits (fits_after start h) step

/-- **The parts of all points that a loop reaches fit.** -/
theorem Continues.fits (hk : run.kernels.Sound run.problem) (h : run.Continues start as) :
    ∀ a ∈ as, a.point.Fits run.problem := by
  induction h with
  | nil => simp
  | snoc before step answer proceeds ih => exact fits_snoc hk ih step

theorem Course.fits (hk : run.kernels.Sound run.problem) {s : Progress R}
    {answer : Except Error Stop} (h : run.Course start as s answer) :
    ∀ a ∈ as, a.point.Fits run.problem := by
  cases h with
  | breakdown before step => exact before.fits hk
  | decision before step answer reason => exact fits_snoc hk (before.fits hk) step
  | fault before step hne => exact before.fits hk
  | refused before step answer => exact fits_snoc hk (before.fits hk) step
  | verdict before step answer h => exact fits_snoc hk (before.fits hk) step

/-- A point whose parts fit can be shown to the callback. -/
theorem exists_snapshot {p : Problem R} (h : a.point.Fits p) (nit : Nat) :
    ∃ snapshot, a.snapshot nit = .ok snapshot := by
  have hsolution : Yields .off (fun t => t.shape = [p.n]) (a.point.solution .off) :=
    h.yields_solution
  obtain ⟨x, hx, -⟩ := hsolution.exists_ok
  exact ⟨⟨nit, a.alpha, a.indicators, x⟩, by rw [Advance.snapshot, hx]; rfl⟩

/-- **With sound kernels nothing fails but the callback.** -/
theorem Course.ok_or_refused (hk : run.kernels.Sound run.problem) {s : Progress R}
    {answer : Except Error Stop} (h : run.Course start as s answer) :
    (∃ stop, answer = .ok stop) ∨
      ∃ before a callback snapshot e, as = before ++ [a] ∧ run.Continues start before ∧
        run.callback = some callback ∧ a.snapshot (before.length + 1) = .ok snapshot ∧
        callback snapshot = .error e := by
  cases h with
  | breakdown before step => exact .inl ⟨_, rfl⟩
  | decision before step answer reason => exact .inl ⟨_, rfl⟩
  | fault before step hne =>
    obtain ⟨b, hb⟩ := hk.exists_breakdown (fits_after start (before.fits hk)) step
    exact absurd hb (hne b)
  | @refused as a e before step answer =>
    have hfits := fits_snoc hk (before.fits hk) step a (by simp)
    obtain ⟨snapshot, hsnapshot⟩ := exists_snapshot hfits (as.length + 1)
    rw [wish] at answer
    cases hcallback : run.callback with
    | none => simp [hcallback] at answer
    | some callback =>
      rw [hcallback] at answer
      dsimp only at answer
      rw [hsnapshot, ok_bind] at answer
      exact .inr ⟨as, a, callback, snapshot, e, rfl, before, rfl, hsnapshot, answer⟩
  | @verdict as a wish e before step answer h =>
    -- A verdict fails only where the objective of the multipliers does.
    have hfits := fits_after start (fits_snoc hk (before.fits hk) step)
    have hdual : Yields .off (fun _ => True)
        (Tensor.dot .off run.problem.b (run.after start (as ++ [a])).point.y) :=
      Tensor.yields_dot run.problem.shape_b hfits.y
    obtain ⟨dualObjective, hdot, -⟩ := hdual.exists_ok
    rw [Run.verdict, hdot, ok_bind] at h
    split at h
    · cases h
    split at h
    · cases h
    split at h
    · cases h
    split at h
    · cases h
    split at h <;> cases h

end Run

/-! ### Results -/

namespace Progress

variable {s s' : Progress R} {p : Problem R} {tol : R} {stop : Stop} {r : Result R}

/-- What a result is made of. -/
theorem exists_of_result (h : s.result p tol stop = .ok r) :
    ∃ x y z primal dual : Tensor R, ∃ normPrimal normDual : R,
      Tensor.div .off s.point.x (.scalar s.point.tau) = .ok x ∧
      Tensor.div .off s.point.y (.scalar s.point.tau) = .ok y ∧
      Tensor.div .off s.point.z (.scalar s.point.tau) = .ok z ∧
      primalResidual p.A (snap tol x) p.b = .ok primal ∧ dualResidual p.c p.A y z = .ok dual ∧
      maxNormOrZero primal = .ok normPrimal ∧ dual.maxNorm = .ok normDual ∧
      r = { x := snap tol x, y, z, stop, objective := s.indicators.obj, nit := s.nit,
            primalResidual := normPrimal, dualResidual := normDual, history := s.history } := by
  obtain ⟨x, hx, h⟩ := exists_of_bind h
  obtain ⟨y, hy, h⟩ := exists_of_bind h
  obtain ⟨z, hz, h⟩ := exists_of_bind h
  obtain ⟨primal, hprimal, h⟩ := exists_of_bind h
  obtain ⟨dual, hdual, h⟩ := exists_of_bind h
  obtain ⟨normPrimal, hnormPrimal, h⟩ := exists_of_bind h
  obtain ⟨normDual, hnormDual, h⟩ := exists_of_bind h
  exact ⟨x, y, z, primal, dual, normPrimal, normDual, hx, hy, hz, hprimal, hdual, hnormPrimal,
    hnormDual, (Except.ok.inj h).symm⟩

/-- **The result depends on the point, its indicators and the history**, but for the reason to stop
and the number of iterations, which it repeats. -/
theorem result_congr (h : s.result p tol stop = .ok r) (hpoint : s'.point = s.point)
    (hindicators : s'.indicators = s.indicators) (hhistory : s'.history = s.history)
    (stop' : Stop) :
    s'.result p tol stop' = .ok { r with stop := stop', nit := s'.nit } := by
  obtain ⟨x, y, z, primal, dual, normPrimal, normDual, hx, hy, hz, hprimal, hdual, hnormPrimal,
    hnormDual, rfl⟩ := exists_of_result h
  simp [result, hpoint, hindicators, hhistory, hx, hy, hz, hprimal, hdual, hnormPrimal, hnormDual,
    pure, Except.pure]

/-- A result repeats where the loop stands. -/
theorem fields_of_result (h : s.result p tol stop = .ok r) :
    r.stop = stop ∧ r.nit = s.nit ∧ r.objective = s.indicators.obj ∧ r.history = s.history := by
  obtain ⟨x, y, z, primal, dual, normPrimal, normDual, -, -, -, -, -, -, -, rfl⟩ :=
    exists_of_result h
  exact ⟨rfl, rfl, rfl, rfl⟩

end Progress

namespace Run

variable {run : Run R} {start : Indicators R} {as : List (Advance R)}

/-- The solve of a course that stops has the result of the state that it ends in. -/
theorem Course.result_solve {s : Progress R} {stop : Stop} (h : run.Course start as s (.ok stop))
    (hstart : indicators .off run.problem (.blindStart run.problem.m run.problem.n) = .ok start) :
    run.solve.result = s.result run.problem run.options.tol stop := by
  rw [h.solve_eq hstart]

/-- The solve of a course that fails has no result. -/
theorem Course.result_solve_of_error {s : Progress R} {e : Error}
    (h : run.Course start as s (.error e))
    (hstart : indicators .off run.problem (.blindStart run.problem.m run.problem.n) = .ok start) :
    run.solve.result = .error e := by
  rw [solve, hstart]
  dsimp only
  rw [solveFrom, loop_of_course h]

/-- The course of a solve that has a result. -/
theorem exists_course_of_result {r : Result R} (hr : run.solve.result = .ok r) :
    ∃ start as s,
      indicators .off run.problem (.blindStart run.problem.m run.problem.n) = .ok start ∧
      run.Course start as s (.ok r.stop) ∧
      s.result run.problem run.options.tol r.stop = .ok r := by
  cases hstart : indicators .off run.problem (.blindStart run.problem.m run.problem.n) with
  | error e =>
    rw [solve, hstart] at hr
    cases hr
  | ok start =>
    obtain ⟨as, s, answer, hcourse⟩ := run.exists_course start
    cases answer with
    | error e =>
      rw [hcourse.result_solve_of_error hstart] at hr
      cases hr
    | ok stop =>
      rw [hcourse.result_solve hstart] at hr
      obtain rfl := (Progress.fields_of_result hr).1
      exact ⟨start, as, s, rfl, hcourse, hr⟩

/-- A course that stops has a result, if the kernels are sound. -/
theorem Course.exists_result (hk : run.kernels.Sound run.problem) {s : Progress R} {stop : Stop}
    (h : run.Course start as s (.ok stop)) :
    ∃ r, s.result run.problem run.options.tol stop = .ok r := by
  have hfits : s.point.Fits run.problem := by
    rw [h.fields_eq.1]
    exact fits_after start (h.fits hk)
  exact hfits.exists_result run.options.tol stop

/-- **A sound run stops.** -/
theorem Sound.exists_course (h : run.Sound start) :
    ∃ as s stop, run.Course start as s (.ok stop) := by
  obtain ⟨as, s, answer, hcourse⟩ := run.exists_course start
  rcases hcourse.ok_or_refused h.kernels with
    ⟨stop, rfl⟩ | ⟨before, a, callback, snapshot, e, -, -, hcallback, -, he⟩
  · exact ⟨as, s, stop, hcourse⟩
  · obtain ⟨wish, hwish⟩ := h.answers callback hcallback snapshot
    cases hwish.symm.trans he

section Standard

variable {K : Type} [ExactField K] (p : Problem K) (o : Options K)
  (callback : Option (Callback K)) (clock : Nat → K)

/-- The blind start of a solve in exact arithmetic has indicators. -/
theorem start_standard :
    indicators .off (standard p o callback clock).problem
      (.blindStart (standard p o callback clock).problem.m
        (standard p o callback clock).problem.n) =
      .ok ((Point.blindStart p.m p.n).indicators p) := by
  refine (congrArg _ (Point.iterate_blindStart p.m p.n).symm).trans ?_
  exact indicators_exact .off p one_pos

/-- The kernels of a solve in exact arithmetic are sound. -/
theorem kernels_standard :
    (standard p o callback clock).kernels.Sound (standard p o callback clock).problem :=
  Kernels.sound_standard p o fun alpha => ⟨_, correctorGamma_exact alpha o.beta⟩

/-- **Every solve in exact arithmetic is a sound run**, if its callback always answers. -/
theorem sound_standard
    (hanswers : ∀ answer, callback = some answer → ∀ snapshot, ∃ wish, answer snapshot = .ok wish) :
    (standard p o callback clock).Sound ((Point.blindStart p.m p.n).indicators p) where
  start := start_standard p o callback clock
  kernels := kernels_standard p o callback clock
  answers := hanswers

end Standard

end Run

/-! ### Kernels that break down late -/

/-- Kernels that add one to `tau`, reduce no infeasibility, and break down after `n` iterations. -/
noncomputable def Kernels.counting (n : ℕ) : Kernels ℝ where
  direction it :=
    if it.tau ≤ n then .ok ⟨.full [1] 0, .full [1] 0, .full [1] 0, 1, 0⟩
    else .error (.breakdown .ratioNotPositive)
  stepLength _ _ := .ok 1
  move it d alpha := .ok { it with tau := it.tau + alpha * d.dtau }
  measure it := .ok ⟨1, 1, 1, 1, 1, it.tau⟩

/-- The run of these kernels on the identity. -/
noncomputable def Run.counting (n : ℕ) : Run ℝ where
  problem := identityProgram
  options := halfStep
  kernels := .counting n
  callback := none
  clock _ := 0

theorem Kernels.advance_counting_of_le {n : ℕ} {it : Iterate ℝ} (h : it.tau ≤ n) :
    (Kernels.counting n).advance it =
      .ok ⟨1, { it with tau := it.tau + 1 }, ⟨1, 1, 1, 1, 1, it.tau + 1⟩⟩ := by
  simp [advance, counting, h, Iterate.isFinite, pure, Except.pure]

theorem Kernels.advance_counting_of_lt {n : ℕ} {it : Iterate ℝ} (h : n < it.tau) :
    (Kernels.counting n).advance it = .error (.breakdown .ratioNotPositive) := by
  simp [advance, counting, not_le.2 h]

namespace Run

/-- The indicators that a run of these kernels starts with. -/
noncomputable def countingStart : Indicators ℝ :=
  (Point.blindStart 1 1).indicators (identityProgram : Problem ℝ)

theorem sound_counting (n : ℕ) : (counting n).Sound countingStart where
  start := (sound_standard (identityProgram : Problem ℝ) halfStep none (fun _ => 0)
    fun _ h => by cases h).start
  kernels := by
    refine ⟨fun it h => ?_⟩
    rcases le_or_gt it.tau n with hle | hlt
    · exact (Kernels.advance_counting_of_le hle) ▸ .ok ⟨h.x, h.y, h.z⟩
    · exact (Kernels.advance_counting_of_lt hlt) ▸ .breakdown rfl
  answers _ h := by cases h

/-- The `i`-th iteration of a run of these kernels. -/
noncomputable def countingAdvance (i : ℕ) : Advance ℝ :=
  ⟨1, { Iterate.blindStart 1 1 with tau := i + 1 }, ⟨1, 1, 1, 1, 1, i + 1⟩⟩

/-- The first `i` iterations of a run of these kernels. -/
noncomputable def countingAdvances (i : ℕ) : List (Advance ℝ) :=
  (List.range i).map fun j => countingAdvance (j + 1)

theorem countingAdvances_succ (i : ℕ) :
    countingAdvances (i + 1) = countingAdvances i ++ [countingAdvance (i + 1)] := by
  simp [countingAdvances, List.range_succ]

theorem point_after_counting (n i : ℕ) :
    ((counting n).after countingStart (countingAdvances i)).point =
      { Iterate.blindStart 1 1 with tau := i + 1 } := by
  cases i with
  | zero =>
    rw [Nat.cast_zero, zero_add]
    rfl
  | succ i => simp [after, countingAdvances_succ, countingAdvance]

theorem advance_counting {n i : ℕ} (h : i < n) :
    (counting n).kernels.advance
      ((counting n).after countingStart (countingAdvances i)).point =
        .ok (countingAdvance (i + 1)) := by
  have hle : ((i : ℝ) + 1) ≤ n := by exact_mod_cast h
  rw [point_after_counting]
  refine (Kernels.advance_counting_of_le hle).trans ?_
  simp [countingAdvance]

/-- No point of a run of these kernels decides it. -/
theorem undecided_counting (n i : ℕ) :
    (counting n).Undecided ((counting n).after countingStart (countingAdvances (i + 1))) := by
  have hindicators : ((counting n).after countingStart (countingAdvances (i + 1))).indicators =
      (countingAdvance (i + 1)).indicators := by
    simp [after, countingAdvances_succ]
  have htol : ¬(1 : ℝ) ≤ (counting n).options.tol := by
    norm_num [counting, halfStep]
  have hrhoP : (countingAdvance (i + 1)).indicators.rhoP = 1 := rfl
  have hrhoMu : (countingAdvance (i + 1)).indicators.rhoMu = 1 := rfl
  constructor
  · refine Bool.eq_false_of_not_eq_true fun h => ?_
    rw [hindicators, Indicators.isSolved_iff, hrhoP] at h
    exact htol h.1
  · refine Bool.eq_false_of_not_eq_true fun h => ?_
    rw [hindicators, Indicators.isCertificate, Bool.or_eq_true, Indicators.residualsVanish_iff,
      Indicators.complementarityVanishes_iff, hrhoP, hrhoMu] at h
    exact h.elim (fun h => htol h.1.le) fun h => htol h.1.le

/-- A run of these kernels goes on after each of the first iterations. -/
theorem continues_counting {n i : ℕ} (hle : i ≤ n) (hlt : i < 1000) :
    (counting n).Continues countingStart (countingAdvances i) := by
  induction i with
  | zero => exact .nil
  | succ i ih =>
    have hundecided := undecided_counting n i
    rw [countingAdvances_succ] at hundecided ⊢
    refine .snoc (ih (Nat.le_of_succ_le hle) (Nat.lt_of_succ_lt hlt)) (advance_counting hle) rfl
      ⟨hundecided, ?_, rfl, rfl⟩
    change (countingAdvances i ++ [countingAdvance (i + 1)]).length < 1000
    simpa [countingAdvances] using hlt

/-- **A run of these kernels** accepts `n` iterations and breaks down in the next one. -/
theorem course_counting {n : ℕ} (hlt : n < 1000) :
    (counting n).Course countingStart (countingAdvances n)
      (((counting n).after countingStart (countingAdvances n)).breakDown .ratioNotPositive)
      (.ok .breakdown) := by
  refine .breakdown (continues_counting le_rfl hlt) ?_
  rw [point_after_counting]
  exact Kernels.advance_counting_of_lt (lt_add_one (n : ℝ))

/-- The result of a run of these kernels. -/
theorem exists_result_counting {n : ℕ} (hlt : n < 1000) :
    ∃ r, (counting n).solve.result = .ok r ∧ r.stop = .breakdown ∧ r.nit = n + 1 ∧
      r.history.length = n := by
  have hcourse := course_counting hlt
  obtain ⟨r, hr⟩ := hcourse.exists_result (sound_counting n).kernels
  obtain ⟨hstop, hnit, -, hhistory⟩ := Progress.fields_of_result hr
  have hlength : (countingAdvances n).length = n := by
    rw [countingAdvances, List.length_map, List.length_range]
  refine ⟨r, (hcourse.result_solve (sound_counting n).start).trans hr, hstop, ?_, ?_⟩
  · exact hnit.trans (congrArg (· + 1) hlength)
  · rw [hhistory, hcourse.fields_eq.2.2, List.length_map, hlength]

end Run

end SelfDual
