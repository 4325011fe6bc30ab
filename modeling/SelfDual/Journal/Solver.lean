import SelfDual.Journal.Session
import SelfDual.Solve.Result
/-!
**What a solve logs.**

Main definitions:

* `Journal.Entry`, `Event.entry?` — what an event logs;
* `Journal.Session.record` — what the events of a solve write.
-/

set_option autoImplicit false

namespace SelfDual

/-- What is logged: a level, and a text with conversions and their arguments. -/
structure Journal.Entry where
  level : Int
  template : String
  arguments : List Journal.Datum

/-- A number among the arguments of an entry. -/
def Journal.Datum.ofFloat (x : Float) : Journal.Datum := .value (.real x)

/-- A count among the arguments of an entry. -/
def Journal.Datum.ofNat (n : Nat) : Journal.Datum := .value (.whole n)

/-- A text among the arguments of an entry. -/
def Journal.Datum.ofString (s : String) : Journal.Datum := .value (.text s)

/-- A breakdown among the arguments of an entry. -/
def Journal.Datum.ofBreakdown (b : Breakdown) : Journal.Datum := .other b.message b.quote

/-- What an event logs. -/
def Event.entry? : Event Float → Option Journal.Entry
  | opened m n backend =>
    some ⟨10, "Solving LP with m=%d, n=%d, backend=%s",
      [.ofNat m, .ofNat n, .ofString backend.name]⟩
  | iterated nit a =>
    let ind := a.indicators
    some ⟨10,
      "iter %d: rho_p=%.3e rho_d=%.3e rho_A=%.3e rho_g=%.3e rho_mu=%.3e alpha=%.3e obj=%.6e",
      [.ofNat nit, .ofFloat ind.rhoP, .ofFloat ind.rhoD, .ofFloat ind.rhoA, .ofFloat ind.rhoG,
        .ofFloat ind.rhoMu, .ofFloat a.alpha, .ofFloat ind.obj]⟩
  | brokeDown nit b =>
    some ⟨30, "Numerical failure at iteration %d: %s", [.ofNat nit, .ofBreakdown b]⟩
  | closed nit message =>
    some ⟨20, "Terminated after %d iterations: %s", [.ofNat nit, .ofString message]⟩
  | _ => none

/-- What the events of a solve write, in order. -/
def Journal.Session.record (s : Session) (events : List (Event Float)) : List (Stream × Text) :=
  (events.filterMap Event.entry?).flatMap fun entry =>
    s.write ⟨solverName, .number entry.level, .text entry.template, entry.arguments⟩

end SelfDual
