import SelfDual.Indicators
import SelfDual.Options
import SelfDual.Status
/-!
**What happens during a solve.**

A solve reports what it does as a list of events in order; what is printed and what is logged can
be read off it.

Main definitions:

* `Stop` — the reasons for which a solve stops, with their statuses and wordings;
* `Advance` — an iteration that has not broken down;
* `Snapshot`, `Callback` — what a callback is shown after an iteration, and the callback;
* `Event` — the events.
-/

set_option autoImplicit false

namespace SelfDual

/-! ### Reasons to stop -/

/-- The reason for which a solve stops. -/
inductive Stop where
  | breakdown
  | solved
  | infeasible
  | unbounded
  | iterationLimit
  | callback
  | timeLimit
  deriving DecidableEq, Repr

namespace Stop

/-- The status of a solve that stops for this reason. -/
def status : Stop → Status
  | breakdown => .numericalError
  | solved => .optimal
  | infeasible => .infeasible
  | unbounded => .unbounded
  | iterationLimit => .iterationLimit
  | callback => .iterationLimit
  | timeLimit => .iterationLimit

/-- The wording of the reason: that of the status, except for a callback and the time limit. -/
def message : Stop → String
  | callback => "Optimization terminated by the callback."
  | timeLimit => "The time limit was reached before the algorithm converged."
  | stop => stop.status.message

end Stop

/-! ### Events -/

/-- An iteration that has not broken down: its step, the point it reaches and the indicators
there. -/
structure Advance (R : Type) where
  alpha : R
  point : Iterate R
  indicators : Indicators R

/-- What a callback is shown after an iteration. -/
structure Snapshot (R : Type) where
  nit : Nat
  alpha : R
  indicators : Indicators R
  x : Tensor R

/-- What is called after an iteration.  It answers whether the solve is to stop, or fails. -/
abbrev Callback (R : Type) := Snapshot R → Except Error Bool

/-- An event of a solve. -/
inductive Event (R : Type) where
  /-- The titles of the printed table. -/
  | header
  /-- A printed row; the starting point has no step. -/
  | row (indicators : Indicators R) (alpha : Option R)
  /-- The solve begins. -/
  | opened (m n : Nat) (backend : Backend)
  /-- An iteration has been accepted. -/
  | iterated (nit : Nat) (advance : Advance R)
  /-- The callback has been called. -/
  | observed (snapshot : Snapshot R)
  /-- An iteration has broken down. -/
  | brokeDown (nit : Nat) (b : Breakdown)
  /-- The solve ends. -/
  | closed (nit : Nat) (message : String)

end SelfDual
