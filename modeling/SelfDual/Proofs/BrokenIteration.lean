import SelfDual.Proofs.Truncation
/-!
**Iterations that break down.**

An iteration can break down at each of its kernels, and at the test for finiteness between them.
Wherever it does, the point, its indicators and the history are those of the iteration before, as
if the limit had been reached there; what remains of the broken iteration is its number and one
event.

Main definitions:

* `Kernels.BreaksDown` — where an iteration breaks down;
* `Run.BrokenAt` — a run whose next iteration after those accepted has broken down, and its result.

Main results:

* `Kernels.advance_eq_breakdown_iff` — **the places are all there are**;
* `Run.Continues.isFinite` — the points that a loop goes on from are finite;
* `Run.breakdown_leaves_no_trace` — **a run that breaks down has the result of the iteration
  before**.
-/

set_option autoImplicit false

namespace SelfDual

variable {R : Type} [Scalar R]

/-! ### Where an iteration breaks down -/

namespace Kernels

variable {k : Kernels R} {it : Iterate R} {b : Breakdown}

/-- **Where an iteration breaks down**: at the direction, at the step length, at the move along it,
at the test for finiteness of the point that this reaches, or at its indicators. -/
inductive BreaksDown (k : Kernels R) (it : Iterate R) : Breakdown → Prop where
  | direction {b : Breakdown} (h : k.direction it = .error (.breakdown b)) : BreaksDown k it b
  | stepLength {b : Breakdown} {d : Direction R} (direction : k.direction it = .ok d)
      (h : k.stepLength it d = .error (.breakdown b)) : BreaksDown k it b
  | move {b : Breakdown} {d : Direction R} {alpha : R} (direction : k.direction it = .ok d)
      (stepLength : k.stepLength it d = .ok alpha)
      (h : k.move it d alpha = .error (.breakdown b)) : BreaksDown k it b
  | notFinite {d : Direction R} {alpha : R} {trial : Iterate R} (direction : k.direction it = .ok d)
      (stepLength : k.stepLength it d = .ok alpha) (move : k.move it d alpha = .ok trial)
      (h : trial.isFinite = false) : BreaksDown k it .iterateNotFinite
  | measure {b : Breakdown} {d : Direction R} {alpha : R} {trial : Iterate R}
      (direction : k.direction it = .ok d) (stepLength : k.stepLength it d = .ok alpha)
      (move : k.move it d alpha = .ok trial) (finite : trial.isFinite = true)
      (h : k.measure trial = .error (.breakdown b)) : BreaksDown k it b

/-- **An iteration breaks down in one of these places, and nowhere else.** -/
theorem advance_eq_breakdown_iff : k.advance it = .error (.breakdown b) ↔ k.BreaksDown it b := by
  constructor
  · intro h
    rcases error_or_exists_of_bind h with h | ⟨d, hdirection, h⟩
    · exact .direction h
    rcases error_or_exists_of_bind h with h | ⟨alpha, hstep, h⟩
    · exact .stepLength hdirection h
    rcases error_or_exists_of_bind h with h | ⟨trial, hmove, h⟩
    · exact .move hdirection hstep h
    cases hfinite : trial.isFinite with
    | false =>
      rw [hfinite] at h
      cases h
      exact .notFinite hdirection hstep hmove hfinite
    | true =>
      rw [if_pos hfinite] at h
      rcases error_or_exists_of_bind h with h | ⟨ind, -, h⟩
      · exact .measure hdirection hstep hmove hfinite h
      · cases h
  · intro h
    cases h with
    | direction h => simp [advance, h]
    | stepLength direction h => simp [advance, direction, h]
    | move direction stepLength h => simp [advance, direction, stepLength, h]
    | notFinite direction stepLength move h =>
      simp [advance, direction, stepLength, move, h, throw, throwThe, MonadExceptOf.throw]
    | measure direction stepLength move finite h =>
      simp [advance, direction, stepLength, move, finite, h]

end Kernels

/-! ### Finite points -/

theorem Tensor.isFinite_full {shape : List Nat} {a : R} (h : Scalar.isFinite a = true) :
    (Tensor.full shape a).isFinite = true := by
  rw [isFinite, all, Array.all_eq_true]
  intro i hi
  simp [full, ofFn, h]

theorem Iterate.isFinite_blindStart (m n : Nat) :
    (Iterate.blindStart m n : Iterate R).isFinite = true := by
  simp [isFinite, blindStart, Tensor.isFinite_full, Scalar.isFinite_zero, Scalar.isFinite_one]

namespace Run

variable {run : Run R} {start : Indicators R} {as : List (Advance R)} {a : Advance R}

/-- **The points that a loop goes on from are finite.** -/
theorem Continues.isFinite (h : run.Continues start as) :
    (run.after start as).point.isFinite = true := by
  cases h with
  | nil => exact Iterate.isFinite_blindStart _ _
  | snoc before step answer proceeds =>
    rw [after_snoc]
    exact Kernels.isFinite_of_advance step

/-! ### Runs that break down -/

/-- **A run whose next iteration after those accepted has broken down**, and its result: that of the
last accepted iteration, with the number of the broken one. -/
structure BrokenAt (run : Run R) (start : Indicators R) (as : List (Advance R)) (b : Breakdown)
    (r : Result R) : Prop where
  opened : indicators .off run.problem (.blindStart run.problem.m run.problem.n) = .ok start
  before : run.Continues start as
  nit : r.nit = as.length + 1
  breaksDown : run.kernels.BreaksDown (run.after start as).point b
  finite : (run.after start as).point.isFinite = true
  result : (run.after start as).result run.problem run.options.tol .breakdown =
    .ok { r with nit := as.length }
  events : run.solve.events =
    (run.after start as).events ++ [.brokeDown r.nit b, .closed r.nit r.message]
  observed : ∀ snapshot, .observed snapshot ∈ run.solve.events → snapshot.nit < r.nit

/-- A run with the status of a breakdown has an iteration that breaks down. -/
theorem exists_brokenAt {r : Result R} (hr : run.solve.result = .ok r)
    (hstatus : r.status = .numericalError) : ∃ start as b, run.BrokenAt start as b r := by
  obtain ⟨start, as, s, hstart, hcourse, hs⟩ := exists_course_of_result hr
  have hstop : r.stop = .breakdown := Stop.eq_breakdown_of_status hstatus
  have hnit := (Progress.fields_of_result hs).2.1
  have hsolve := congrArg Outcome.events (hcourse.solve_eq hstart)
  rw [hstop] at hcourse hs
  cases hcourse with
  | decision before step answer reason => cases reason
  | @breakdown as b before step =>
    have hevents : run.solve.events =
        (run.after start as).events ++ [.brokeDown r.nit b, .closed r.nit r.message] := by
      rw [hsolve, Result.message, hnit, hstop]
      exact List.append_assoc _ _ _
    refine ⟨start, as, b, ⟨hstart, before, hnit, Kernels.advance_eq_breakdown_iff.1 step,
      before.isFinite, ?_, hevents, fun snapshot hmem => ?_⟩⟩
    · have hresult : (run.after start as).result run.problem run.options.tol .breakdown =
          .ok { r with stop := .breakdown, nit := as.length } := by
        refine Progress.result_congr hs ?_ ?_ ?_ .breakdown <;> rfl
      rw [hresult, hstop]
    · -- What comes after the accepted iterations shows the callback nothing.
      have hafter : .observed snapshot ∈ (run.after start as).events := by
        simpa [hevents] using hmem
      obtain ⟨-, i, a, ha, hsnapshot⟩ := observed_mem_after_iff.1 hafter
      rw [nit_of_snapshot hsnapshot, hnit]
      exact Nat.succ_lt_succ (List.getElem?_eq_some_iff.1 ha).1

/-- **A run that breaks down has the result of the iteration before.**  Wherever its iteration
breaks down, the point and its indicators are those of the last accepted iteration, or of the blind
start, and so are the solution, the objective and the residuals; with one iteration less for the
limit the run is the same but for the last two events, the number of the iteration and the reason to
stop. -/
theorem breakdown_leaves_no_trace {r : Result R} (hr : run.solve.result = .ok r)
    (hstatus : r.status = .numericalError) :
    ∃ start as b, run.BrokenAt start as b r ∧
      (r.nit = 1 → r.history = [] ∧
        (run.start start).result run.problem run.options.tol .breakdown =
          .ok { r with nit := 0 }) ∧
      ∀ k (hk : 0 < k), r.nit = k + 1 →
        (run.withLimit k hk).solve =
          ⟨(run.after start as).events ++ [.closed k Stop.iterationLimit.message],
            .ok { r with stop := .iterationLimit, nit := k }⟩ := by
  obtain ⟨start, as, b, h⟩ := exists_brokenAt hr hstatus
  refine ⟨start, as, b, h, fun hnit => ?_, fun k hk hnit => ?_⟩
  · obtain rfl : as = [] := List.length_eq_zero_iff.1 (by have := h.nit; omega)
    have hresult := h.result
    rw [after_nil] at hresult
    exact ⟨(Progress.fields_of_result hresult).2.2.2, hresult⟩
  · have hlength : as.length = k := by
      have := h.nit
      omega
    have hresult : ((run.withLimit k hk).after start as).result run.problem run.options.tol
        .iterationLimit = .ok { r with stop := .iterationLimit, nit := as.length } :=
      Progress.result_congr h.result rfl rfl rfl .iterationLimit
    have hclosed : ((run.withLimit k hk).after start as).nit = k := hlength
    rw [hlength] at hresult
    rw [(h.before.course_withLimit hk hlength).solve_eq h.opened, hclosed]
    exact congrArg (Outcome.mk _) hresult

end Run

/-- A run that breaks down in the third iteration has the result of the second. -/
theorem breakdown_leaves_no_trace_counting :
    ∃ r, (Run.counting 2).solve.result = .ok r ∧ r.status = .numericalError ∧ r.nit = 3 ∧
      ((Run.counting 2).withLimit 2 Nat.two_pos).solve.result =
        .ok { r with stop := .iterationLimit, nit := 2 } := by
  obtain ⟨r, hr, hstop, hnit, -⟩ := Run.exists_result_counting (show 2 < 1000 by decide)
  have hstatus : r.status = .numericalError := congrArg Stop.status hstop
  obtain ⟨start, as, b, -, -, hlimit⟩ := Run.breakdown_leaves_no_trace hr hstatus
  exact ⟨r, hr, hstatus, hnit, congrArg Outcome.result (hlimit 2 Nat.two_pos hnit)⟩

end SelfDual
