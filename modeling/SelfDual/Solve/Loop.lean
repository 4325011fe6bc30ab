import SelfDual.NewtonSystem
import SelfDual.Solve.Event
/-!
**The iteration.**

An iteration advances the point and then decides whether to stop.  A breakdown while advancing
leaves the point of the iteration before.  The loop knows the numerical method only as four
kernels, so what it does can be said without any arithmetic.

Main definitions:

* `Kernels` — the numerical method as the loop sees it, and `Kernels.standard`, the method itself;
* `Kernels.advance` — one iteration, from a point to the next;
* `Run` — the fixed surroundings of a loop: program, options, kernels, callback and clock;
* `Progress` — where a loop stands;
* `Run.verdict` — the reason to stop after an accepted iteration, if there is one;
* `Run.loop` — the iteration.
-/

set_option autoImplicit false

namespace SelfDual

variable {R : Type} [Scalar R]

/-! ### Kernels -/

/-- The numerical method as the loop sees it. -/
structure Kernels (R : Type) where
  direction : Iterate R → Except Error (Direction R)
  stepLength : Iterate R → Direction R → Except Error R
  move : Iterate R → Direction R → R → Except Error (Iterate R)
  measure : Iterate R → Except Error (Indicators R)

namespace Kernels

/-- The homogeneous method, every exception trapped. -/
def standard (p : Problem R) (o : Options R) : Kernels R where
  direction it := searchDirection .on (factorize o.backend) p it o.beta
  stepLength it d := SelfDual.stepLength .on it d o.alpha0
  move it d alpha := it.move .on d alpha
  measure it := indicators .on p it

/-- One iteration: a direction, a step along it, and the indicators of the point reached, which
must be finite. -/
def advance (k : Kernels R) (it : Iterate R) : Except Error (Advance R) := do
  let d ← k.direction it
  let alpha ← k.stepLength it d
  let trial ← k.move it d alpha
  if trial.isFinite then
    return ⟨alpha, trial, ← k.measure trial⟩
  else
    throw (.breakdown .iterateNotFinite)

/-- The point that an iteration reaches is finite. -/
theorem isFinite_of_advance {k : Kernels R} {it : Iterate R} {a : Advance R}
    (h : k.advance it = .ok a) : a.point.isFinite = true := by
  simp only [advance, bind, Except.bind, pure, Except.pure] at h
  split at h
  · cases h
  · split at h
    · cases h
    · split at h
      · cases h
      · split at h
        · split at h
          · cases h
          · cases h; assumption
        · cases h

end Kernels

/-! ### The surroundings of a loop -/

/-- The fixed surroundings of a loop.  The clock gives the seconds that have passed when an
iteration ends. -/
structure Run (R : Type) [Scalar R] where
  problem : Problem R
  options : Options R
  kernels : Kernels R
  callback : Option (Callback R)
  clock : Nat → R

/-- Where a loop stands: the number of iterations begun, the point and its indicators, the
indicators of all accepted iterations and the events so far. -/
structure Progress (R : Type) where
  nit : Nat
  point : Iterate R
  indicators : Indicators R
  history : List (Indicators R)
  events : List (Event R)

namespace Progress

/-- The progress with further events. -/
def report (s : Progress R) (events : List (Event R)) : Progress R :=
  { s with events := s.events ++ events }

/-- The next iteration has broken down; all else stays. -/
def breakDown (s : Progress R) (b : Breakdown) : Progress R :=
  { s with nit := s.nit + 1, events := s.events ++ [.brokeDown (s.nit + 1) b] }

/-- The next iteration has been accepted. -/
def accept (s : Progress R) (a : Advance R) : Progress R where
  nit := s.nit + 1
  point := a.point
  indicators := a.indicators
  history := s.history ++ [a.indicators]
  events := s.events ++ [.iterated (s.nit + 1) a]

end Progress

namespace Run

/-- Reports an accepted iteration: the printed row, and the call of the callback with its
answer. -/
def observe (run : Run R) (s : Progress R) (alpha : R) : Progress R × Except Error Bool :=
  let rows := if run.options.verbose then [Event.row s.indicators (some alpha)] else []
  let s := s.report rows
  match run.callback with
  | none => (s, .ok false)
  | some answer =>
    match s.point.solution .off with
    | .error e => (s, .error e)
    | .ok x =>
      let snapshot := { nit := s.nit, alpha, indicators := s.indicators, x : Snapshot R }
      (s.report [.observed snapshot], answer snapshot)

/-- Whether the time limit has passed when the iteration ends. -/
def timeIsUp (run : Run R) (nit : Nat) : Bool :=
  match run.options.timeLimit with
  | none => false
  | some seconds => seconds ≤ run.clock nit

/-- The reason to stop after an accepted iteration.  The first that applies decides: a solution, a
certificate that there is none, the last iteration, the callback's wish, the time limit. -/
def verdict (run : Run R) (s : Progress R) (wish : Bool) : Except Error (Option Stop) :=
  let tol := run.options.tol
  if s.indicators.isSolved tol then
    .ok (some .solved)
  else if s.indicators.isCertificate s.point.tau s.point.kappa tol then do
    let dualObjective ← Tensor.dot .off run.problem.b s.point.y
    return some (if tol < dualObjective then .infeasible else .unbounded)
  else if run.options.maxiter ≤ s.nit then
    .ok (some .iterationLimit)
  else if wish then
    .ok (some .callback)
  else if run.timeIsUp s.nit then
    .ok (some .timeLimit)
  else
    .ok none

/-- At most `left` further iterations, up to the first reason to stop.  An error that is no
breakdown, such as that of a callback that fails, ends the loop without a reason. -/
def loop (run : Run R) : Nat → Progress R → Progress R × Except Error Stop
  | 0, s => (s, .ok .iterationLimit)
  | left + 1, s =>
    match run.kernels.advance s.point with
    | .error (.breakdown b) => (s.breakDown b, .ok .breakdown)
    | .error e => (s, .error e)
    | .ok a =>
      match run.observe (s.accept a) a.alpha with
      | (s, .error e) => (s, .error e)
      | (s, .ok wish) =>
        match run.verdict s wish with
        | .error e => (s, .error e)
        | .ok (some stop) => (s, .ok stop)
        | .ok none => loop run left s

end Run

end SelfDual
