import SelfDual.Solve.Result
/-!
**Solves of what is given.**

A solve can be asked for with data as nested lists and settings by name.  Settings to start from and
settings that override them may both be given, and so may a callback.

Main definitions:

* `Base` — the settings that a request starts from;
* `Request` — a solve as it is asked for;
* `Request.ofArguments` — the request that named arguments make;
* `Request.settings` — the settings of a request;
* `Request.solve` — its solve.
-/

set_option autoImplicit false

namespace SelfDual

/-! ### Requests -/

/-- The settings that a request starts from. -/
inductive Base where
  | defaults
  /-- The default settings with some of them replaced. -/
  | fields (fields : List (Text × Value))
  /-- A value that holds no settings. -/
  | other (v : Value)

/-- The base that a value stands for: nothing means the defaults, and no other value holds
settings. -/
def Base.ofValue : Value → Base
  | .null => defaults
  | v => other v

/-- The callback that a value stands for: nothing is none, and no other value can be called. -/
def Callback.ofValue? {R : Type} : Value → Option (Callback R)
  | .null => none
  | v => some fun _ => .error (.notCallable v)

/-- A solve as it is asked for: data as nested lists, settings to start from, settings to
override, a callback and a clock. -/
structure Request where
  c : Value
  A : Value
  b : Value
  base : Base := .defaults
  overrides : List (Text × Value) := []
  callback : Option (Callback Float) := none
  clock : Nat → Float

namespace Request

/-- The argument of a name, nothing if there is none. -/
def argument (arguments : List (Text × Value)) (name : Text) : Value :=
  (arguments.lookup name).getD .null

/-- The request of data and named arguments.  Two names are those of the settings to start from and
of the callback; all others override a setting. -/
def ofArguments (c A b : Value) (arguments : List (Text × Value)) (clock : Nat → Float) :
    Request where
  c := c
  A := A
  b := b
  base := .ofValue (argument arguments "options")
  overrides := arguments.filter fun (name, _) => name ≠ "options" ∧ name ≠ "callback"
  callback := Callback.ofValue? (argument arguments "callback")
  clock := clock

/-! ### Their solves -/

/-- The settings of a request; nothing if they are a value that holds none.  Such a value is a fault
at once only if settings are to be replaced in it. -/
def settings (r : Request) : Except Error (Option Settings) := do
  match r.base with
  | .defaults => some <$> Settings.ofFields r.overrides
  | .fields fields =>
    let s ← Settings.ofFields fields
    if r.overrides.isEmpty then return some s else some <$> s.override r.overrides
  | .other v => if r.overrides.isEmpty then return none else throw (.notReplaceable v)

/-- The solve of a request.  Faults are found in the settings first, then in the data, then in
the device if the backend runs on one.  A tolerance beyond the largest double counts as infinite
during the iteration and is a fault of the result, whose small entries it cannot be compared
with. -/
def solve (r : Request) : Except Error (Outcome Float) := do
  let settings ← r.settings
  let problem ← Problem.ofValues r.c r.A r.b
  let some settings := settings | throw .noSettings
  let options ← settings.accept
  if options.backend = .device then
    let _ ← Device.resolve settings.device
  let outcome := SelfDual.solve problem options r.callback r.clock
  match settings.tol.toEntry with
  | .ok _ => return outcome
  | .error e => return outcome.fail e

end Request

end SelfDual
