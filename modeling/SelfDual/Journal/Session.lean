import SelfDual.Journal.Layout
/-!
**Loggers and where their records go.**

All loggers stand under one root name and are created when they are first asked for.  A logger has
handlers, each of which writes records of its level and above to a stream.  Setting a level or a
configuration applies to all loggers that exist, and the level also to those created later.

Main definitions:

* `Journal.Handler`, `Journal.Logger`, `Journal.Session` — the state;
* `Journal.Session.initial` — the state at the start;
* `Journal.Session.get` — the logger of a name, created if there is none;
* `Journal.Session.setLevel`, `Journal.Session.configure` — the changes;
* `Journal.Session.emit` — what a record writes.
-/

set_option autoImplicit false

namespace SelfDual.Journal

/-! ### The state -/

/-- Where a handler writes. -/
inductive Stream where
  /-- The error stream. -/
  | errors
  /-- A buffer that the caller passes; several of them are told apart by numbers. -/
  | buffer (number : Nat := 0)
  deriving DecidableEq, Repr

/-- A handler of a logger. -/
structure Handler where
  level : Level
  layout : Layout
  stream : Stream

/-- A logger.  One that propagates passes its records on to the nearest logger above it. -/
structure Logger where
  name : Text
  level : Level
  propagate : Bool
  handlers : List Handler

/-- The loggers in the order of their creation, and the level of those to come. -/
structure Session where
  loggers : List Logger
  defaultLevel : Level

/-! ### Names -/

/-- The name that all loggers stand under. -/
def rootName : Text := "hsdlp"

/-- The name of the logger that solves write to. -/
def solverName : Text := "hsdlp.solver"

/-- The full name of a logger that is asked for. -/
def fullName : Option Text → Text
  | none => rootName
  | some name =>
    if name = rootName || name.startsWith (rootName ++ ".") then name else rootName ++ "." ++ name

/-- The names above a name, the nearest one first: what stands before each of its points. -/
def namesAbove (name : Text) : List Text :=
  (List.range name.length).reverse.filterMap fun i =>
    if name.symbols[i]? = some (.char '.') then some (name.take i) else none

/-! ### Loggers -/

/-- A logger as it is created: one handler, on the error stream, in the standard layout. -/
def Logger.create (name : Text) (level : Level) : Logger where
  name := name
  level := level
  propagate := false
  handlers := [⟨level, .standard, .errors⟩]

/-- The logger with its level and that of its handlers changed. -/
def Logger.withLevel (l : Logger) (level : Level) : Logger :=
  { l with level, handlers := l.handlers.map fun h => { h with level } }

/-- The logger with its level changed and its handlers replaced by one. -/
def Logger.withHandler (l : Logger) (h : Handler) : Logger :=
  { l with level := h.level, handlers := [h] }

namespace Session

/-- At the start there is the logger of solves, at the level of warnings. -/
def initial : Session where
  loggers := [.create solverName .warning]
  defaultLevel := .warning

/-- The logger of a full name. -/
def find? (s : Session) (name : Text) : Option Logger :=
  s.loggers.find? fun l => l.name = name

/-- The logger of a name, whether it was there before, and the session with it. -/
def get (s : Session) (name : Option Text) : Logger × Bool × Session :=
  match s.find? (fullName name) with
  | some l => (l, true, s)
  | none =>
    let l := Logger.create (fullName name) s.defaultLevel
    (l, false, { s with loggers := s.loggers ++ [l] })

/-- Sets the level of all loggers, of those to come too. -/
def setLevel (s : Session) (level : Value) : Except SetupError Session := do
  let level ← Level.ofValue level
  return { loggers := s.loggers.map (·.withLevel level), defaultLevel := level }

/-- Replaces the handlers of all loggers and sets the level.  The layout is tested before the
level. -/
def configure (s : Session) (level layout : Value) (stream : Stream) :
    Except SetupError Session := do
  let layout ← Layout.ofValue layout
  let level ← Level.ofValue level
  return {
    loggers := s.loggers.map (·.withHandler ⟨level, layout, stream⟩)
    defaultLevel := level }

/-! ### Records -/

/-- The loggers that exist with a name and above it, the nearest one first. -/
def path (s : Session) (name : Text) : List Logger :=
  (name :: namesAbove name).filterMap s.find?

/-- The level from which on a logger takes records: its own, or if that is zero the nearest one
above that is not, or that of a warning. -/
def effectiveLevel (s : Session) (name : Text) : Int :=
  match (s.path name).find? fun l => l.level.value ≠ 0 with
  | some l => l.level.value
  | none => Level.warning.value

/-- The loggers whose handlers get a record: the first, and those above as far as each passes
records on. -/
def receivers : List Logger → List Logger
  | [] => []
  | l :: above => l :: if l.propagate then receivers above else []

/-- What a handler writes of a record. -/
def Handler.write? (h : Handler) (r : Record) : Option (Stream × Text) :=
  if h.level.value ≤ r.level.value then
    (h.layout.render? r).map fun text => (h.stream, text ++ "\n")
  else none

/-- What a record of the logger writes, in order. -/
def write (s : Session) (r : Record) : List (Stream × Text) :=
  if 0 < r.level.value && s.effectiveLevel r.logger ≤ r.level.value then
    (receivers (s.path r.logger)).flatMap fun l => l.handlers.filterMap (Handler.write? · r)
  else []

/-- Emits a message through the logger of a name, which is created if there is none. -/
def emit (s : Session) (name : Option Text) (level : Level) (message : Value) :
    List (Stream × Text) × Session :=
  let (l, _, s) := s.get name
  (s.write ⟨l.name, level, message, []⟩, s)

end Session

/-- The text written to one stream. -/
def textOf (stream : Stream) (written : List (Stream × Text)) : Text :=
  .join ((written.filter fun w => w.1 = stream).map (·.2))

end SelfDual.Journal
