import SelfDual.Value
/-!
**Backends of the factorization and their devices.**

The normal equations are factorized by one of two backends, which differ in the right-hand sides
they take and in the wording of a failure.  Only one of them runs on a device of choice.

Main definitions:

* `Backend` — the two backends, with their names;
* `Backend.ofValue?` — the backend that a setting names.
-/

set_option autoImplicit false

namespace SelfDual

/-- Where the normal equations are factorized. -/
inductive Backend where
  /-- On the host, by its dense linear algebra library. -/
  | host
  /-- On a device that the `device` setting names. -/
  | device
  deriving DecidableEq, Repr

namespace Backend

/-- The name of a backend in settings and messages. -/
def name : Backend → String
  | host => "scipy"
  | device => "torch"

/-- All backends, in the order in which messages list them. -/
def all : List Backend := [host, device]

/-- The backend of a name. -/
def ofName? (s : String) : Option Backend :=
  all.find? fun b => b.name = s

/-- The backend that a setting names. -/
def ofValue? (v : Value) : Option Backend :=
  v.string?.bind ofName?

/-- Every backend is found by its name. -/
@[simp] theorem ofName?_name (b : Backend) : ofName? b.name = some b := by
  cases b <;> decide

/-- A setting that is the name of a backend names it. -/
@[simp] theorem ofValue?_name (b : Backend) : ofValue? (.text b.name) = some b := by
  simp [ofValue?]

end Backend

end SelfDual
