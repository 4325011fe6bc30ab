import SelfDual.Error
/-!
**The statuses of a solve.**

Main definitions:

* `Status` — how a solve ended;
* `Status.code`, `Status.name`, `Status.message` — its number, its name and its wording;
* `Status.ofValue` — the status of a number.
-/

set_option autoImplicit false

namespace SelfDual

/-- How a solve ended. -/
inductive Status where
  | optimal
  | iterationLimit
  | infeasible
  | unbounded
  | numericalError
  deriving DecidableEq, Repr

namespace Status

/-- All statuses, in the order of their numbers. -/
def all : List Status := [optimal, iterationLimit, infeasible, unbounded, numericalError]

/-- The number of a status. -/
def code : Status → Nat
  | optimal => 0
  | iterationLimit => 1
  | infeasible => 2
  | unbounded => 3
  | numericalError => 4

/-- The name of a status. -/
def name : Status → String
  | optimal => "OPTIMAL"
  | iterationLimit => "MAX_ITER"
  | infeasible => "INFEASIBLE"
  | unbounded => "UNBOUNDED"
  | numericalError => "NUMERICAL_ERROR"

/-- The wording of a status. -/
def message : Status → String
  | optimal => "Optimization terminated successfully."
  | iterationLimit => "The iteration limit was reached before the algorithm converged."
  | infeasible =>
    "The algorithm terminated successfully and determined that the problem is infeasible."
  | unbounded =>
    "The algorithm terminated successfully and determined that the problem is unbounded."
  | numericalError =>
    "Numerical difficulties were encountered before the problem converged. Please check your " ++
      "problem formulation for errors, independence of linear equality constraints, and " ++
      "reasonable scaling and matrix condition numbers."

/-- The status whose number a value equals. -/
def ofValue (v : Value) : Except Error Status :=
  match all.find? fun s => v.equalsInt s.code with
  | some s => .ok s
  | none => .error (.unknownStatus v)

/-- The statuses are numbered in order. -/
theorem code_getElem (i : Nat) (h : i < all.length) : all[i].code = i := by
  match i, h with
  | 0, _ => rfl
  | 1, _ => rfl
  | 2, _ => rfl
  | 3, _ => rfl
  | 4, _ => rfl

/-- There are no other statuses. -/
theorem mem_all (s : Status) : s ∈ all := by
  cases s <;> decide

end Status

end SelfDual
