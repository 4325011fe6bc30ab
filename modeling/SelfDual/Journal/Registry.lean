import SelfDual.Journal.Command
/-!
**Changes of the loggers, one assignment at a time.**

A change of level or configuration goes through the loggers one after the other, and through the
handlers of each.  Every assignment of a level tests it first.  A test that fails ends the change
where it stands, and nothing that was assigned before is taken back; the level of the loggers to
come is assigned last, and nothing tests it then.  Here this is written down assignment by
assignment, where `Session` has the change as a whole.

Main definitions:

* `Journal.Change` — a change that can end half-way;
* `Journal.Change.within`, `Journal.Change.forEach` — a change of a part, and one element after the
  other;
* `Journal.Logger.assignLevels`, `Journal.Logger.replaceHandlers` — the changes of one logger;
* `Journal.Registry`, `Journal.Registry.setLevel`, `Journal.Registry.configure` — the changes of all
  of them;
* `Journal.Registry.act`, `Journal.Registry.afterAll` — commands.
-/

set_option autoImplicit false

namespace SelfDual.Journal

/-! ### Changes -/

/-- A change that ends where a fault occurs, and leaves what it has done up to there. -/
abbrev Change (σ α : Type) := EStateM SetupError σ α

/-- A level as it is asked for: the level, or the fault that a test of it will show. -/
abbrev AskedLevel := Except SetupError Level

namespace Change

variable {σ τ : Type}

/-- Tests something that has been asked for. -/
def test {α : Type} (asked : Except SetupError α) : Change σ α := MonadExcept.ofExcept asked

/-- Changes a part. -/
def within (read : σ → τ) (write : τ → σ → σ) (c : Change τ Unit) : Change σ Unit := fun s =>
  match c (read s) with
  | .ok _ t => .ok () (write t s)
  | .error e t => .error e (write t s)

/-- Changes one element after the other. -/
def forEach (c : Change σ Unit) : Change (List σ) Unit
  | [] => .ok () []
  | a :: as =>
    match c a with
    | .error e a => .error e (a :: as)
    | .ok _ a =>
      match forEach c as with
      | .error e as => .error e (a :: as)
      | .ok _ as => .ok () (a :: as)

end Change

/-! ### One logger -/

/-- Assigns the level of a handler. -/
def Handler.assignLevel (asked : AskedLevel) : Change Handler Unit := do
  let level ← Change.test asked
  modify fun h => { h with level }

namespace Logger

/-- Assigns the level of a logger itself. -/
def assignLevel (asked : AskedLevel) : Change Logger Unit := do
  let level ← Change.test asked
  modify fun l => { l with level }

/-- Assigns the level of a logger and those of its handlers. -/
def assignLevels (asked : AskedLevel) : Change Logger Unit := do
  assignLevel asked
  Change.within (·.handlers) (fun handlers l => { l with handlers })
    (Change.forEach (Handler.assignLevel asked))

/-- Assigns the level of a logger, removes its handlers, and adds a new one once its level has been
assigned. -/
def replaceHandlers (asked : AskedLevel) (layout : Layout) (stream : Stream) :
    Change Logger Unit := do
  assignLevel asked
  modify fun l => { l with handlers := [] }
  let level ← Change.test asked
  modify fun l => { l with handlers := l.handlers ++ [⟨level, layout, stream⟩] }

end Logger

/-! ### All loggers -/

/-- The loggers in the order of their creation, and the level of those to come, which may not have
been tested. -/
structure Registry where
  loggers : List Logger
  defaultLevel : AskedLevel

/-- The registry of a session. -/
def Session.registry (s : Session) : Registry := ⟨s.loggers, .ok s.defaultLevel⟩

namespace Registry

/-- Changes one logger after the other. -/
def onLoggers (c : Change Logger Unit) : Change Registry Unit :=
  Change.within (·.loggers) (fun loggers g => { g with loggers }) (Change.forEach c)

/-- Sets the level of all loggers, then of those to come. -/
def setLevel (level : Value) : Change Registry Unit := do
  let asked := Level.ofValue level
  onLoggers (Logger.assignLevels asked)
  modify fun g => { g with defaultLevel := asked }

/-- Replaces the handlers of all loggers and sets the level.  The layout is tested before the first
logger is changed. -/
def configure (level layout : Value) (stream : Stream) : Change Registry Unit := do
  let layout ← Change.test (Layout.ofValue layout)
  let asked := Level.ofValue level
  onLoggers (Logger.replaceHandlers asked layout stream)
  modify fun g => { g with defaultLevel := asked }

/-- Creates the logger of a name if there is none. -/
def create (name : Option Text) : Change Registry Unit := fun g =>
  match g.loggers.find? fun l => l.name = fullName name with
  | some _ => .ok () g
  | none =>
    match g.defaultLevel with
    | .error e => .error e g
    | .ok level => .ok () { g with loggers := g.loggers ++ [.create (fullName name) level] }

/-- What a command does to the loggers. -/
def act : Command → Change Registry Unit
  | .get name => create name
  | .setLevel level => setLevel level
  | .configure level layout stream => configure level layout stream
  | .emit name _ _ => create name
  | .record _ => pure ()

/-- The registry after a command, also where the command has ended half-way. -/
def after (g : Registry) (c : Command) : Registry :=
  match act c g with
  | .ok _ g' => g'
  | .error _ g' => g'

/-- The registry after a list of commands. -/
def afterAll (g : Registry) (commands : List Command) : Registry := commands.foldl after g

@[simp] theorem afterAll_nil (g : Registry) : g.afterAll [] = g := rfl

@[simp] theorem afterAll_cons (g : Registry) (c : Command) (commands : List Command) :
    g.afterAll (c :: commands) = (g.after c).afterAll commands := rfl

end Registry

end SelfDual.Journal
