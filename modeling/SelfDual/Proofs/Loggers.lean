import Mathlib.Data.List.Nodup
import SelfDual.Journal.Command
/-!
**The loggers of a session.**

Loggers come into being when they are asked for, levels and handlers change for all of them at
once, and changes may be refused.  Whatever the order of the commands, all loggers stand under the
root name, have one handler each and no way up, and are at one level: the one that was set last.

Main definitions:

* `Journal.UnderRoot` — the names that loggers can have;
* `Journal.Logger.Follows` — a logger with one handler, both at a level;
* `Journal.Session.Coherent` — all loggers follow the level of those to come;
* `Journal.Session.levelsSet` — the levels that commands set, in order;
* `Journal.Session.Step` — what a command can do to a session.

Main results:

* `Journal.fullName_fullName` — the full name of a full name is that name;
* `Journal.Session.step_perform` — every command is one of four steps;
* `Journal.Session.exists_levelSet` — a command that is not refused sets the level it asks for;
* `Journal.Session.Coherent.performAll` — a session stays coherent;
* `Journal.Session.keeps_names_performAll`, `Journal.Session.Coherent.get_again` — no logger is
  ever lost, renamed or created twice;
* `Journal.Session.coherent_session` — the loggers of a session from the start on.
-/

set_option autoImplicit false

namespace SelfDual

/-- A text put behind another one begins with it. -/
@[simp] theorem Text.startsWith_append (start t : Text) : (start ++ t).startsWith start = true := by
  simp [Text.startsWith]

namespace Journal

/-! ### Names -/

/-- The root name, and all names that begin with it and a point. -/
def UnderRoot (name : Text) : Prop :=
  name = rootName ∨ name.startsWith (rootName ++ ".") = true

/-- A full name stands under the root. -/
theorem underRoot_fullName (name : Option Text) : UnderRoot (fullName name) := by
  cases name with
  | none => exact .inl rfl
  | some name =>
    simp only [fullName]
    split
    · rename_i h
      simpa [UnderRoot] using h
    · exact .inr (Text.startsWith_append _ _)

/-- A name under the root is its own full name. -/
theorem fullName_of_underRoot {name : Text} (h : UnderRoot name) : fullName (some name) = name := by
  have hcond : (name = rootName || name.startsWith (rootName ++ ".")) = true := by
    simpa [UnderRoot] using h
  rw [fullName, if_pos hcond]

/-- The full name of a full name is that name. -/
theorem fullName_fullName (name : Option Text) : fullName (some (fullName name)) = fullName name :=
  fullName_of_underRoot (underRoot_fullName name)

/-! ### Loggers at a level -/

/-- A logger at a level: it has one handler, at the level too, and passes nothing on. -/
structure Logger.Follows (l : Logger) (level : Level) : Prop where
  level_eq : l.level = level
  handler : ∃ h, l.handlers = [h] ∧ h.level = level
  silent : l.propagate = false

namespace Logger

theorem follows_create (name : Text) (level : Level) : (create name level).Follows level :=
  ⟨rfl, ⟨_, rfl, rfl⟩, rfl⟩

/-- A change of level changes the level of the handler with that of the logger. -/
theorem Follows.withLevel {l : Logger} {before : Level} (h : l.Follows before) (level : Level) :
    (l.withLevel level).Follows level := by
  obtain ⟨handler, handlers_eq, -⟩ := h.handler
  exact ⟨rfl, ⟨{ handler with level }, by simp [Logger.withLevel, handlers_eq], rfl⟩, h.silent⟩

/-- A new handler takes the place of the old one. -/
theorem Follows.withHandler {l : Logger} {before : Level} (h : l.Follows before)
    (handler : Handler) : (l.withHandler handler).Follows handler.level :=
  ⟨rfl, ⟨handler, rfl, rfl⟩, h.silent⟩

@[simp] theorem name_withLevel (l : Logger) (level : Level) : (l.withLevel level).name = l.name :=
  rfl

@[simp] theorem name_withHandler (l : Logger) (h : Handler) : (l.withHandler h).name = l.name := rfl

@[simp] theorem name_create (name : Text) (level : Level) : (create name level).name = name := rfl

end Logger

/-! ### Levels that commands set -/

/-- The level that a command asks for, as it is given. -/
def Command.level? : Command → Option Value
  | setLevel level => some level
  | configure level _ _ => some level
  | _ => none

namespace Session

variable {s s' : Session}

/-- The level that a command sets: the one it asks for, unless it is refused. -/
def levelSet? (s : Session) (c : Command) : Option Level :=
  match (s.perform c).1.refusal with
  | some _ => none
  | none => c.level?.bind fun v => (Level.ofValue v).toOption

/-- The levels that commands set one after the other. -/
def levelsSet (s : Session) : List Command → List Level
  | [] => []
  | c :: commands => (s.levelSet? c).toList ++ (s.perform c).2.levelsSet commands

/-- What a command can do to a session, with the level it sets: nothing, create a logger at the
level at hand, or bring all loggers and those to come to a new level. -/
inductive Step (s : Session) : Option Level → Session → Prop where
  | kept : Step s none s
  | created (name : Text) (fresh : ∀ l ∈ s.loggers, l.name ≠ name) (under : UnderRoot name) :
      Step s none { s with loggers := s.loggers ++ [.create name s.defaultLevel] }
  | leveled (level : Level) :
      Step s (some level) ⟨s.loggers.map (·.withLevel level), level⟩
  | configured (h : Handler) :
      Step s (some h.level) ⟨s.loggers.map (·.withHandler h), h.level⟩

/-! ### Asking for a logger -/

/-- The logger asked for was there, or it is created and put last. -/
theorem get_cases (s : Session) (name : Option Text) :
    (∃ l ∈ s.loggers, l.name = fullName name ∧ s.get name = (l, true, s)) ∨
      (∀ l ∈ s.loggers, l.name ≠ fullName name) ∧
        s.get name = (.create (fullName name) s.defaultLevel, false,
          { s with loggers := s.loggers ++ [.create (fullName name) s.defaultLevel] }) := by
  cases hfind : s.find? (fullName name) with
  | some l =>
    have hname : l.name = fullName name := by simpa using List.find?_some hfind
    refine .inl ⟨l, List.mem_of_find?_eq_some hfind, hname, ?_⟩
    simp [get, hfind]
  | none =>
    refine .inr ⟨?_, by simp [get, hfind]⟩
    simpa [find?] using hfind

/-- Asking for a logger is a step. -/
theorem step_get (s : Session) (name : Option Text) : s.Step none (s.get name).2.2 := by
  rcases s.get_cases name with ⟨l, -, -, hget⟩ | ⟨fresh, hget⟩
  · rw [hget]
    exact .kept
  · rw [hget]
    exact .created _ fresh (underRoot_fullName name)

/-- The logger asked for is in the session then, under the full name. -/
theorem get_mem (s : Session) (name : Option Text) :
    (s.get name).1 ∈ (s.get name).2.2.loggers ∧ (s.get name).1.name = fullName name := by
  rcases s.get_cases name with ⟨l, hl, hname, hget⟩ | ⟨-, hget⟩
  · rw [hget]
    exact ⟨hl, hname⟩
  · rw [hget]
    exact ⟨List.mem_append_right _ (List.mem_singleton_self _), rfl⟩

/-- If names are told apart, a logger of the session is what its name asks for. -/
theorem get_of_mem (hnodup : (s.loggers.map (·.name)).Nodup) {l : Logger} (hl : l ∈ s.loggers)
    {name : Option Text} (hname : l.name = fullName name) : s.get name = (l, true, s) := by
  rcases s.get_cases name with ⟨l', hl', hname', hget⟩ | ⟨fresh, -⟩
  · have hsame : l' = l := List.inj_on_of_nodup_map hnodup hl' hl (hname'.trans hname.symm)
    rw [hget, hsame]
  · exact absurd hname (fresh l hl)

/-! ### One command -/

/-- A change of level that is not refused is a step that sets the level. -/
theorem setLevel_eq (s : Session) (v : Value) :
    (∃ e, Level.ofValue v = .error e ∧ s.setLevel v = .error e) ∨
      ∃ level, Level.ofValue v = .ok level ∧
        s.setLevel v = .ok ⟨s.loggers.map (·.withLevel level), level⟩ := by
  cases hlevel : Level.ofValue v with
  | error e => exact .inl ⟨e, rfl, by simp [setLevel, hlevel, bind, Except.bind]⟩
  | ok level =>
    exact .inr ⟨level, rfl, by simp [setLevel, hlevel, bind, Except.bind, pure, Except.pure]⟩

/-- A configuration that is not refused replaces all handlers by the one that is asked for. -/
theorem configure_eq (s : Session) (v layout : Value) (stream : Stream) :
    (∃ e, s.configure v layout stream = .error e) ∨
      ∃ h : Handler, Level.ofValue v = .ok h.level ∧ Layout.ofValue layout = .ok h.layout ∧
        h.stream = stream ∧
        s.configure v layout stream = .ok ⟨s.loggers.map (·.withHandler h), h.level⟩ := by
  cases hlayout : Layout.ofValue layout with
  | error e => exact .inl ⟨e, by simp [configure, hlayout, bind, Except.bind]⟩
  | ok format =>
    cases hlevel : Level.ofValue v with
    | error e => exact .inl ⟨e, by simp [configure, hlayout, hlevel, bind, Except.bind]⟩
    | ok level =>
      refine .inr ⟨⟨level, format, stream⟩, rfl, rfl, rfl, ?_⟩
      simp [configure, hlayout, hlevel, bind, Except.bind, pure, Except.pure]

/-- Every command is a step that sets the level it is accepted with. -/
theorem step_perform (s : Session) (c : Command) : s.Step (s.levelSet? c) (s.perform c).2 := by
  cases c with
  | get name => exact s.step_get name
  | setLevel v =>
    rcases s.setLevel_eq v with ⟨e, -, hset⟩ | ⟨level, hlevel, hset⟩
    · simpa [levelSet?, perform, settle, hset] using Step.kept
    · simpa [levelSet?, perform, settle, hset, Command.level?, hlevel, Except.toOption]
        using Step.leveled level
  | configure v layout stream =>
    rcases s.configure_eq v layout stream with ⟨e, hset⟩ | ⟨h, hlevel, -, -, hset⟩
    · simpa [levelSet?, perform, settle, hset] using Step.kept
    · simpa [levelSet?, perform, settle, hset, Command.level?, hlevel, Except.toOption]
        using Step.configured h
  | emit name level message => exact s.step_get name
  | record events => exact .kept

/-- A command that asks for a level and is not refused sets the level it asks for. -/
theorem exists_levelSet {c : Command} {v : Value} (hasked : c.level? = some v)
    (haccepted : (s.perform c).1.refusal = none) :
    ∃ level, Level.ofValue v = .ok level ∧ s.levelSet? c = some level := by
  have hset : s.levelSet? c = (Level.ofValue v).toOption := by
    simp [levelSet?, haccepted, hasked]
  cases hlevel : Level.ofValue v with
  | ok level => exact ⟨level, rfl, by rw [hset, hlevel]; rfl⟩
  | error e =>
    cases c with
    | setLevel v' =>
      obtain rfl : v' = v := by simpa [Command.level?] using hasked
      rcases s.setLevel_eq v' with ⟨_, -, hrefused⟩ | ⟨level, hok, -⟩
      · simp [perform, settle, hrefused] at haccepted
      · simp [hlevel] at hok
    | configure v' layout stream =>
      obtain rfl : v' = v := by simpa [Command.level?] using hasked
      rcases s.configure_eq v' layout stream with ⟨_, hrefused⟩ | ⟨h, hok, -⟩
      · simp [perform, settle, hrefused] at haccepted
      · simp [hlevel] at hok
    | get name => simp [Command.level?] at hasked
    | emit name level message => simp [Command.level?] at hasked
    | record events => simp [Command.level?] at hasked

/-! ### Coherent sessions -/

/-- All loggers stand under the root and follow the level of those to come, and no two have the
same name. -/
structure Coherent (s : Session) : Prop where
  under : ∀ l ∈ s.loggers, UnderRoot l.name
  follows : ∀ l ∈ s.loggers, l.Follows s.defaultLevel
  nodup : (s.loggers.map (·.name)).Nodup

theorem coherent_initial : initial.Coherent where
  under := by
    intro l hl
    obtain rfl : l = .create solverName .warning := by simpa [initial] using hl
    exact .inr (by decide +kernel)
  follows := by
    intro l hl
    obtain rfl : l = .create solverName .warning := by simpa [initial] using hl
    exact Logger.follows_create _ _
  nodup := by simp [initial]

/-- A change of all loggers that keeps their names and puts them at a level keeps a session
coherent. -/
theorem Coherent.map (hs : s.Coherent) {f : Logger → Logger} {level : Level}
    (hname : ∀ l, (f l).name = l.name)
    (hfollows : ∀ l ∈ s.loggers, (f l).Follows level) :
    Coherent ⟨s.loggers.map f, level⟩ where
  under := by
    intro l hl
    obtain ⟨l₀, hl₀, rfl⟩ := List.mem_map.mp hl
    rw [hname]
    exact hs.under l₀ hl₀
  follows := by
    intro l hl
    obtain ⟨l₀, hl₀, rfl⟩ := List.mem_map.mp hl
    exact hfollows l₀ hl₀
  nodup := by simpa [Function.comp_def, hname] using hs.nodup

/-- A step keeps a session coherent. -/
theorem Coherent.step (hs : s.Coherent) {set : Option Level} (h : s.Step set s') :
    s'.Coherent := by
  cases h with
  | kept => exact hs
  | created name fresh under =>
    refine ⟨?_, ?_, ?_⟩
    · intro l hl
      rcases List.mem_append.mp hl with hl | hl
      · exact hs.under l hl
      · obtain rfl := List.mem_singleton.mp hl
        exact under
    · intro l hl
      rcases List.mem_append.mp hl with hl | hl
      · exact hs.follows l hl
      · obtain rfl := List.mem_singleton.mp hl
        exact Logger.follows_create _ _
    · rw [List.map_append, List.nodup_append]
      refine ⟨hs.nodup, List.nodup_singleton _, ?_⟩
      intro a ha b hb
      obtain ⟨l, hl, rfl⟩ := List.mem_map.mp ha
      obtain rfl : b = name := by simpa using hb
      exact fresh l hl
  | leveled level =>
    exact hs.map (fun l => l.name_withLevel level) fun l hl => (hs.follows l hl).withLevel level
  | configured h =>
    exact hs.map (fun l => l.name_withHandler h) fun l hl => (hs.follows l hl).withHandler h

/-- Only a level that is set changes the level of the loggers to come. -/
theorem Step.defaultLevel_eq {set : Option Level} (h : s.Step set s') :
    s'.defaultLevel = set.getD s.defaultLevel := by
  cases h <;> rfl

/-- A step keeps the names in their order, and puts new ones last. -/
theorem Step.keeps_names {set : Option Level} (h : s.Step set s') :
    s.loggers.map (·.name) <+: s'.loggers.map (·.name) := by
  cases h with
  | kept => exact List.prefix_rfl
  | created name fresh under =>
    rw [List.map_append]
    exact List.prefix_append _ _
  | leveled level => simp [Function.comp_def]
  | configured h => simp [Function.comp_def]

/-! ### Lists of commands -/

/-- A coherent session stays coherent, whatever the commands. -/
theorem Coherent.performAll (hs : s.Coherent) (commands : List Command) :
    (s.performAll commands).Coherent := by
  induction commands generalizing s with
  | nil => exact hs
  | cons c commands ih => exact ih (hs.step (s.step_perform c))

/-- The level of the loggers to come is the level that was set last. -/
theorem defaultLevel_performAll (s : Session) (commands : List Command) :
    (s.performAll commands).defaultLevel =
      (s.levelsSet commands).getLast?.getD s.defaultLevel := by
  induction commands generalizing s with
  | nil => rfl
  | cons c commands ih =>
    rw [performAll_cons, ih, levelsSet, (s.step_perform c).defaultLevel_eq]
    cases s.levelSet? c with
    | none => simp
    | some level =>
      cases (s.perform c).2.levelsSet commands with
      | nil => simp
      | cons first others => simp [List.getLast?_cons]

/-- No logger is ever lost, renamed or moved. -/
theorem keeps_names_performAll (s : Session) (commands : List Command) :
    s.loggers.map (·.name) <+: (s.performAll commands).loggers.map (·.name) := by
  induction commands generalizing s with
  | nil => exact List.prefix_rfl
  | cons c commands ih => exact (s.step_perform c).keeps_names.trans (ih _)

/-- In a coherent session, a logger that was asked for once is there from then on: asking for it
again creates nothing. -/
theorem Coherent.get_again (hs : s.Coherent) (name : Option Text) (commands : List Command) :
    ∃ l, ((s.get name).2.2.performAll commands).get name =
      (l, true, (s.get name).2.2.performAll commands) := by
  have hlater := (hs.step (s.step_get name)).performAll commands
  obtain ⟨hmem, hname⟩ := s.get_mem name
  have hkept : fullName name ∈ ((s.get name).2.2.performAll commands).loggers.map (·.name) := by
    refine (keeps_names_performAll _ commands).subset ?_
    rw [← hname]
    exact List.mem_map_of_mem hmem
  obtain ⟨l, hl, hfull⟩ := List.mem_map.mp hkept
  exact ⟨l, get_of_mem hlater.nodup hl hfull⟩

/-- In a coherent session, the logger of a name is the logger of its own name, and asking for that
one changes nothing more. -/
theorem Coherent.get_get (hs : s.Coherent) (name : Option Text) :
    (s.get name).2.2.get (some (s.get name).1.name) = ((s.get name).1, true, (s.get name).2.2) := by
  have hafter := hs.step (s.step_get name)
  obtain ⟨hmem, hname⟩ := s.get_mem name
  exact get_of_mem hafter.nodup hmem (by rw [hname, fullName_fullName])

/-- **The loggers of a session.**  After any commands, refused ones, records and solves among them,
the loggers stand under the root name and are told apart by their names; each has one handler and
passes nothing on, and it and its handler are at the level that was set last, or at that of warnings
if none was.  A logger that is asked for next is no different; it is also the logger of its own
name, and asking for that one changes nothing more. -/
theorem coherent_session (commands : List Command) :
    let s := initial.performAll commands
    (∀ l ∈ s.loggers, UnderRoot l.name ∧ l.Follows s.defaultLevel) ∧
      (s.loggers.map (·.name)).Nodup ∧
      s.defaultLevel = (initial.levelsSet commands).getLast?.getD (.number 30) ∧
      ∀ name, let (l, _, s') := s.get name
        l ∈ s'.loggers ∧ UnderRoot l.name ∧ l.Follows s.defaultLevel ∧
          s'.defaultLevel = s.defaultLevel ∧
          s'.perform (.get (some l.name)) = ({ logger := some (l, true) }, s') := by
  intro s
  have hs : s.Coherent := coherent_initial.performAll commands
  refine ⟨fun l hl => ⟨hs.under l hl, hs.follows l hl⟩, hs.nodup,
    defaultLevel_performAll initial commands, ?_⟩
  intro name
  have hstep := s.step_get name
  have hsame := hs.get_get name
  obtain ⟨hmem, -⟩ := s.get_mem name
  rcases hget : s.get name with ⟨l, before, s'⟩
  rw [hget] at hstep hsame hmem
  have hafter := hs.step hstep
  have hlevel : s'.defaultLevel = s.defaultLevel := hstep.defaultLevel_eq
  refine ⟨hmem, hafter.under l hmem, hlevel ▸ hafter.follows l hmem, hlevel, ?_⟩
  simp only [perform, hsame]

end Session

end Journal

end SelfDual
