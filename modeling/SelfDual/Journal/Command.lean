import SelfDual.Journal.Solver
/-!
**Sessions of commands.**

What can be done to the loggers, one command at a time: ask for a logger, set the level, replace
the configuration, emit a record, or log what a solve did.  A command that is refused changes
nothing.

Main definitions:

* `Journal.Command` — the commands;
* `Journal.Reply` — what a command answers and writes;
* `Journal.Session.perform` — a command performed;
* `Journal.Session.performAll` — the session after a list of commands.
-/

set_option autoImplicit false

namespace SelfDual.Journal

/-- Something that is done to the loggers. -/
inductive Command where
  | get (name : Option Text)
  | setLevel (level : Value)
  | configure (level layout : Value) (stream : Stream)
  | emit (name : Option Text) (level : Level) (message : Value)
  /-- The events of a solve are logged. -/
  | record (events : List (Event Float))

/-- What a command answers: the logger asked for with whether it was there before, or why the
command was refused; and what was written, in order. -/
structure Reply where
  logger : Option (Logger × Bool) := none
  refusal : Option SetupError := none
  written : List (Stream × Text) := []

namespace Session

/-- The session that a change leads to; the old one if the change is refused. -/
def settle (s : Session) : Except SetupError Session → Reply × Session
  | .ok s' => ({}, s')
  | .error e => ({ refusal := some e }, s)

/-- A command performed. -/
def perform (s : Session) : Command → Reply × Session
  | .get name =>
    let (l, before, s) := s.get name
    ({ logger := some (l, before) }, s)
  | .setLevel level => s.settle (s.setLevel level)
  | .configure level layout stream => s.settle (s.configure level layout stream)
  | .emit name level message =>
    let (written, s) := s.emit name level message
    ({ written }, s)
  | .record events => ({ written := s.record events }, s)

/-- The session after a list of commands. -/
def performAll (s : Session) (commands : List Command) : Session :=
  commands.foldl (fun s c => (s.perform c).2) s

@[simp] theorem performAll_nil (s : Session) : s.performAll [] = s := rfl

@[simp] theorem performAll_cons (s : Session) (c : Command) (commands : List Command) :
    s.performAll (c :: commands) = (s.perform c).2.performAll commands := rfl

/-- A command that is refused changes nothing. -/
theorem perform_of_refusal {s : Session} {c : Command} {e : SetupError}
    (h : (s.perform c).1.refusal = some e) : (s.perform c).2 = s := by
  have key : ∀ r : Except SetupError Session,
      (s.settle r).1.refusal = some e → (s.settle r).2 = s := by
    intro r hr
    cases r with
    | ok s' => cases hr
    | error e' => rfl
  cases c with
  | get name => cases h
  | setLevel level => exact key _ h
  | configure level layout stream => exact key _ h
  | emit name level message => cases h
  | record events => cases h

end Session

end SelfDual.Journal
