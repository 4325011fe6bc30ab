import SelfDual.Device
import SelfDual.Scalar
/-!
**Settings and options of a solve.**

Settings are the values that a user gives by name; options are what a solve works with, and can be
had only from settings that pass every test.

Main definitions:

* `Options` — the options, with the bounds they keep;
* `Settings` — the named values, with their defaults;
* `Settings.update` — settings with some of them replaced;
* `Settings.accept` — the options of settings that pass all tests.
-/

set_option autoImplicit false

namespace SelfDual

/-! ### Options -/

/-- The options of a solve: the fraction of the greatest step that is taken, the cap on the
centering, the number of iterations, the tolerance of the indicators, whether rows are printed, the
backend, and the seconds after which the solve ends. -/
structure Options (R : Type) [Scalar R] where
  alpha0 : R
  beta : R
  maxiter : Nat
  tol : R
  verbose : Bool
  backend : Backend
  timeLimit : Option R
  alpha0_pos : 0 < alpha0
  alpha0_le : alpha0 ≤ 1
  beta_pos : 0 < beta
  beta_lt : beta < 1
  maxiter_pos : 0 < maxiter
  tol_pos : 0 < tol
  timeLimit_pos : ∀ t, timeLimit = some t → 0 < t

/-! ### Settings -/

/-- Named values, as given. -/
structure Settings where
  alpha0 : Value := .real 0.99995
  beta : Value := .real 0.1
  maxiter : Value := .whole 1000
  tol : Value := .real 1e-8
  verbose : Value := .truth false
  backend : Value := .text "scipy"
  device : Value := .text "cpu"
  timeLimit : Value := .null

namespace Settings

/-- The settings with one of them replaced; a name that no setting has is an error. -/
def replace (s : Settings) (name : Text) (v : Value) : Except Error Settings :=
  match name.string? with
  | some "alpha0" => .ok { s with alpha0 := v }
  | some "beta" => .ok { s with beta := v }
  | some "maxiter" => .ok { s with maxiter := v }
  | some "tol" => .ok { s with tol := v }
  | some "verbose" => .ok { s with verbose := v }
  | some "backend" => .ok { s with backend := v }
  | some "device" => .ok { s with device := v }
  | some "time_limit" => .ok { s with timeLimit := v }
  | _ => .error (.unknownSetting name)

/-- The settings with some of them replaced. -/
def update (s : Settings) (fields : List (Text × Value)) : Except Error Settings :=
  fields.foldlM (fun s (name, v) => s.replace name v) s

/-- The number that a setting is. -/
def numeric (v : Value) : Except Error Float :=
  match v.number? with
  | some x => .ok x
  | none => .error (.notComparable v)

/-- The integer that a setting is.  A text is read, but is not the integer it reads as. -/
def count (v : Value) : Except Error Int :=
  match v, v.integer? with
  | _, some n => .ok n
  | .real x, none =>
    if x.isNaN then .error (.notAnInteger v)
    else if x.isInf then .error .infiniteInteger
    else .error (.iterationLimit v)
  | .text t, none =>
    if (t.string?.bind Decimal.readInt?).isSome then .error (.iterationLimit v)
    else .error (.notAnInteger v)
  | _, none => .error (.notComparable v)

/-- The time limit, if there is one. -/
def limit (v : Value) : Except Error { t : Option Float // ∀ x, t = some x → 0 < x } :=
  match v with
  | .null => .ok ⟨none, by simp⟩
  | v => do
    let x ← numeric v
    let ⟨h⟩ ← require (0 < x) (.timeLimit v)
    return ⟨some x, by simpa using h⟩

/-- The options of settings that pass every test; else the first fault found. -/
def accept (s : Settings) : Except Error (Options Float) := do
  let alpha0 ← numeric s.alpha0
  let ⟨alpha0_pos, alpha0_le⟩ ← require (0 < alpha0 ∧ alpha0 ≤ 1) (.stepFraction s.alpha0)
  let beta ← numeric s.beta
  let ⟨beta_pos, beta_lt⟩ ← require (0 < beta ∧ beta < 1) (.centeringCap s.beta)
  let maxiter ← count s.maxiter
  let ⟨maxiter_pos⟩ ← require (0 < maxiter) (.iterationLimit s.maxiter)
  let tol ← numeric s.tol
  let ⟨tol_pos⟩ ← require (0 < tol) (.tolerance s.tol)
  let some backend := Backend.ofValue? s.backend | throw (.unknownBackend s.backend)
  let ⟨timeLimit, timeLimit_pos⟩ ← limit s.timeLimit
  return {
    alpha0, beta, maxiter := maxiter.toNat, tol, verbose := s.verbose.isTrue, backend, timeLimit
    alpha0_pos, alpha0_le, beta_pos, beta_lt, tol_pos, timeLimit_pos
    maxiter_pos := by omega }

/-- Default settings with some of them replaced, tested. -/
def ofFields (fields : List (Text × Value)) : Except Error Settings := do
  let s ← ({} : Settings).update fields
  let _ ← s.accept
  return s

/-- Tested settings with some of them replaced, tested again. -/
def override (s : Settings) (fields : List (Text × Value)) : Except Error Settings := do
  let s ← s.update fields
  let _ ← s.accept
  return s

end Settings

end SelfDual
