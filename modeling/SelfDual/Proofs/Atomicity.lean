import SelfDual.Journal.Registry
import SelfDual.Proofs.Loggers
/-!
**A change that is refused changes nothing.**

A change of level or configuration assigns one level after the other, and takes nothing back where
a test fails.  Still no change is ever left half-way: the level is the same for all assignments, so
that the first test decides about all of them, and there always is a logger to test it.  Without a
logger nothing would test the level, and it would be taken for the loggers to come whatever it is.

Main results:

* `Journal.Change.forEach_of_ok`, `Journal.Change.forEach_of_error` — one element after the other;
* `Journal.Registry.setLevel_eq`, `Journal.Registry.configure_eq` — **the changes as a whole**,
  where there is a logger, and `Journal.Registry.setLevel_without_loggers`, where there is none;
* `Journal.Registry.act_registry`, `Journal.Registry.afterAll_registry` — assignment by assignment
  a command, and a list of commands, does what `Session.perform` does;
* `Journal.Registry.refused_changes_nothing` — **a refused command leaves everything as it was**.
-/

set_option autoImplicit false

namespace SelfDual.Journal

/-! ### Changes in steps -/

namespace Change

section Steps

variable {σ τ α β : Type} {x : Change σ α} {f : α → Change σ β} {s s' : σ} {a : α}
  {e : SetupError} {read : σ → τ} {write : τ → σ → σ} {c : Change τ Unit} {t : τ}

/-- A step that succeeds hands on what it has done. -/
theorem bind_of_ok (h : x s = .ok a s') : (x >>= f) s = f a s' := by
  simp only [bind, EStateM.bind, h]

/-- A step that fails ends the change where it stands. -/
theorem bind_of_error (h : x s = .error e s') : (x >>= f) s = .error e s' := by
  simp only [bind, EStateM.bind, h]

theorem within_of_ok (h : c (read s) = .ok () t) : within read write c s = .ok () (write t s) := by
  simp only [within, h]

theorem within_of_error (h : c (read s) = .error e t) :
    within read write c s = .error e (write t s) := by
  simp only [within, h]

end Steps

variable {σ : Type} {c : Change σ Unit}

/-- Where no element fails, all are changed. -/
theorem forEach_of_ok {f : σ → σ} (h : ∀ a, c a = .ok () (f a)) (as : List σ) :
    forEach c as = .ok () (as.map f) := by
  induction as with
  | nil => rfl
  | cons a as ih => simp only [forEach, h, ih, List.map_cons]

/-- Where the elements fail and stay as they were, the first one ends the change. -/
theorem forEach_of_error {e : SetupError} (h : ∀ a, c a = .error e a) {as : List σ}
    (hne : as ≠ []) : forEach c as = .error e as := by
  cases as with
  | nil => exact absurd rfl hne
  | cons a as => simp only [forEach, h]

end Change

/-! ### One logger -/

namespace Logger

variable (l : Logger) (level : Level) (e : SetupError) (layout : Layout) (stream : Stream)

theorem assignLevels_ok : assignLevels (.ok level) l = .ok () (l.withLevel level) := by
  have hown : assignLevel (.ok level) l = .ok () { l with level } := rfl
  have hhandlers : Change.forEach (Handler.assignLevel (.ok level)) l.handlers =
      .ok () (l.handlers.map fun h => { h with level }) :=
    Change.forEach_of_ok (fun _ => rfl) l.handlers
  rw [assignLevels, Change.bind_of_ok hown]
  exact Change.within_of_ok hhandlers

/-- The level of the logger itself is tested first. -/
theorem assignLevels_error : assignLevels (.error e) l = .error e l := rfl

theorem replaceHandlers_ok : replaceHandlers (.ok level) layout stream l =
    .ok () (l.withHandler ⟨level, layout, stream⟩) := rfl

theorem replaceHandlers_error : replaceHandlers (.error e) layout stream l = .error e l := rfl

end Logger

/-! ### All loggers -/

namespace Registry

variable {g : Registry} {c : Change Logger Unit}

theorem onLoggers_of_ok {f : Logger → Logger} (h : ∀ l, c l = .ok () (f l)) (g : Registry) :
    onLoggers c g = .ok () { g with loggers := g.loggers.map f } :=
  Change.within_of_ok (Change.forEach_of_ok h g.loggers)

theorem onLoggers_of_error {e : SetupError} (h : ∀ l, c l = .error e l) (hne : g.loggers ≠ []) :
    onLoggers c g = .error e g :=
  Change.within_of_error (Change.forEach_of_error h hne)

/-- **A change of level as a whole**, where there is a logger: it is refused before the first
assignment, or it reaches all loggers. -/
theorem setLevel_eq (hne : g.loggers ≠ []) (v : Value) :
    setLevel v g = match Level.ofValue v with
      | .error e => .error e g
      | .ok level => .ok () ⟨g.loggers.map (·.withLevel level), .ok level⟩ := by
  rw [setLevel]
  cases Level.ofValue v with
  | error e => exact Change.bind_of_error (onLoggers_of_error (·.assignLevels_error e) hne)
  | ok level => exact Change.bind_of_ok (onLoggers_of_ok (·.assignLevels_ok level) g)

/-- **A configuration as a whole**, where there is a logger. -/
theorem configure_eq (hne : g.loggers ≠ []) (v layout : Value) (stream : Stream) :
    configure v layout stream g = match Layout.ofValue layout, Level.ofValue v with
      | .error e, _ => .error e g
      | .ok _, .error e => .error e g
      | .ok format, .ok level =>
        .ok () ⟨g.loggers.map (·.withHandler ⟨level, format, stream⟩), .ok level⟩ := by
  rw [configure]
  cases Layout.ofValue layout with
  | error e => rfl
  | ok format =>
    refine (Change.bind_of_ok rfl).trans ?_
    cases Level.ofValue v with
    | error e =>
      exact Change.bind_of_error (onLoggers_of_error (·.replaceHandlers_error e format stream) hne)
    | ok level =>
      exact Change.bind_of_ok (onLoggers_of_ok (·.replaceHandlers_ok level format stream) g)

/-- Without a logger no level is tested, and that of the loggers to come may be none. -/
theorem setLevel_without_loggers (asked : AskedLevel) (v : Value) :
    setLevel v ⟨[], asked⟩ = .ok () ⟨[], Level.ofValue v⟩ := rfl

/-! ### Commands -/

/-- A logger that is asked for is created here as in the session. -/
theorem create_registry (s : Session) (name : Option Text) :
    create name s.registry = .ok () (s.get name).2.2.registry := by
  have hfind : s.registry.loggers.find? (fun l => l.name = fullName name) =
      s.find? (fullName name) := rfl
  rw [create, Session.get, hfind]
  cases s.find? (fullName name) <;> rfl

/-- **Assignment by assignment a command does what it does as a whole**, where there is a logger: it
leads to the same loggers, or is refused with the same fault and leaves them as they were. -/
theorem act_registry {s : Session} (hne : s.loggers ≠ []) (c : Command) :
    act c s.registry = match (s.perform c).1.refusal with
      | none => .ok () (s.perform c).2.registry
      | some e => .error e s.registry := by
  have hne' : s.registry.loggers ≠ [] := hne
  cases c with
  | get name => exact create_registry s name
  | setLevel v =>
    rw [act, setLevel_eq hne']
    rcases s.setLevel_eq v with ⟨e, hlevel, hset⟩ | ⟨level, hlevel, hset⟩
    · simp [Session.perform, Session.settle, hlevel, hset]
    · simp [Session.perform, Session.settle, hlevel, hset, Session.registry]
  | configure v layout stream =>
    rw [act, configure_eq hne']
    cases hlayout : Layout.ofValue layout with
    | error e =>
      simp [Session.perform, Session.settle, Session.configure, hlayout, bind, Except.bind]
    | ok format =>
      cases hlevel : Level.ofValue v with
      | error e =>
        simp [Session.perform, Session.settle, Session.configure, hlayout, hlevel, bind,
          Except.bind]
      | ok level =>
        simp [Session.perform, Session.settle, Session.configure, hlayout, hlevel, bind,
          Except.bind, pure, Except.pure, Session.registry]
  | emit name level message => exact create_registry s name
  | record events => rfl

/-- After a command the registry is that of the session. -/
theorem after_registry {s : Session} (hne : s.loggers ≠ []) (c : Command) :
    s.registry.after c = (s.perform c).2.registry := by
  rw [after, act_registry hne]
  cases hrefusal : (s.perform c).1.refusal with
  | none => rfl
  | some e => rw [Session.perform_of_refusal hrefusal]

/-- Where there is a logger, there is one after any commands. -/
theorem loggers_performAll_ne_nil {s : Session} (hne : s.loggers ≠ []) (commands : List Command) :
    (s.performAll commands).loggers ≠ [] := by
  intro hnil
  have hnames := s.keeps_names_performAll commands
  rw [hnil, List.map_nil, List.prefix_nil, List.map_eq_nil_iff] at hnames
  exact hne hnames

/-- **So does a list of commands.** -/
theorem afterAll_registry {s : Session} (hne : s.loggers ≠ []) (commands : List Command) :
    s.registry.afterAll commands = (s.performAll commands).registry := by
  induction commands generalizing s with
  | nil => rfl
  | cons c commands ih =>
    rw [afterAll_cons, Session.performAll_cons, after_registry hne]
    exact ih (loggers_performAll_ne_nil hne [c])

/-- **A refused command leaves everything as it was.**  Assignment by assignment, from the start on,
refused commands among them, the loggers and the level of those to come are what `Session.perform`
makes of them.  So a command that ends with a fault has assigned nothing, and a level is refused
exactly if it is none, a configuration exactly if its layout or its level is none. -/
theorem refused_changes_nothing (commands : List Command) :
    let s := Session.initial.performAll commands
    let g := Session.initial.registry.afterAll commands
    g = s.registry ∧
      (∀ c, match act c g with
        | .ok _ g' => (s.perform c).1.refusal = none ∧ g' = (s.perform c).2.registry
        | .error e g' => (s.perform c).1.refusal = some e ∧ (s.perform c).2 = s ∧ g' = g) ∧
      (∀ v, (∃ e g', setLevel v g = .error e g') ↔ ∃ e, Level.ofValue v = .error e) ∧
      ∀ v layout stream, (∃ e g', configure v layout stream g = .error e g') ↔
        (∃ e, Layout.ofValue layout = .error e) ∨ ∃ e, Level.ofValue v = .error e := by
  intro s g
  have hinitial : Session.initial.loggers ≠ [] := List.cons_ne_nil _ _
  have hne : s.loggers ≠ [] := loggers_performAll_ne_nil hinitial commands
  have hg : g = s.registry := afterAll_registry hinitial commands
  have hne' : g.loggers ≠ [] := hg ▸ hne
  refine ⟨hg, fun c => ?_, fun v => ?_, fun v layout stream => ?_⟩
  · rw [hg, act_registry hne]
    cases hrefusal : (s.perform c).1.refusal with
    | none => exact ⟨rfl, rfl⟩
    | some e => exact ⟨rfl, Session.perform_of_refusal hrefusal, rfl⟩
  · rw [setLevel_eq hne']
    cases Level.ofValue v <;> simp
  · rw [configure_eq hne']
    cases Layout.ofValue layout <;> cases Level.ofValue v <;> simp

end Registry

end SelfDual.Journal
