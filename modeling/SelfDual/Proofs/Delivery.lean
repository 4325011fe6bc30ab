import SelfDual.Proofs.Loggers
/-!
**Where a record goes.**

Every logger has one handler and passes nothing on, so a record that is taken is written once, also
where loggers above or below its own one exist.  The handler is the one that the logger was created
with, or the one that the last configuration since then has put in its place; what is configured
before a logger is created does not concern it.

Main definitions:

* `Journal.Layout.Applies`, `Journal.Piece.isSafe` — layouts that every record can fill in, and
  pieces that no record fails to;
* `Journal.Output`, `Journal.Session.output` — a stream with a layout, and where the records of a
  name go;
* `Journal.Session.configured?`, `Journal.Session.configuredSince` — what a command configures, and
  what commands do so from the time on when there is a logger.

Main results:

* `Journal.Layout.applies_of_safe`, `Journal.Layout.applies_standard` — layouts that apply;
* `Journal.Session.output_perform`, `Journal.Session.output_performAll` — **the output of a logger**
  is what was configured last since it was created;
* `Journal.Session.Coherent.write_eq` — a record is written once or not at all;
* `Journal.Session.emit_delivers_once` — **what a session does with a record**.
-/

set_option autoImplicit false

namespace SelfDual.Journal

/-! ### Layouts that every record can fill in -/

/-- Every record that has a message can fill in the layout. -/
def Layout.Applies (l : Layout) : Prop :=
  ∀ r : Record, r.message?.isSome → ∃ text, l.render? r = some text

/-- The names of the fields of records. -/
def Record.fieldNames : List Text :=
  ((⟨"", .warning, .null, []⟩ : Record).fields "").map (·.1)

/-- A piece that data of any kind can fill in: a symbol, or a conversion to a text that names a
field of records. -/
def Piece.isSafe : Piece → Bool
  | .literal _ => true
  | .conversion none _ => false
  | .conversion (some name) c => c.letter ∈ ['s', 'r', 'a'] && name ∈ Record.fieldNames

/-- A conversion to a text writes everything. -/
theorem Conversion.exists_write {c : Conversion} (h : c.letter ∈ ['s', 'r', 'a']) (d : Datum) :
    ∃ text, c.write? d = some text := by
  obtain ⟨flags, width, precision, letter⟩ := c
  simp only [List.mem_cons, List.not_mem_nil, or_false] at h
  rcases h with rfl | rfl | rfl <;> exact ⟨_, rfl⟩

/-- All records have the same fields. -/
theorem Record.exists_lookup (r : Record) (message : Text) {name : Text} (h : name ∈ fieldNames) :
    ∃ d, (r.fields message).lookup name = some d := by
  have hnames : (r.fields message).map (·.1) = fieldNames := rfl
  rw [← hnames] at h
  obtain ⟨field, hfield, rfl⟩ := List.mem_map.1 h
  exact Option.isSome_iff_exists.1 (List.lookup_isSome_iff.2 ⟨field, hfield, beq_self_eq_true _⟩)

/-- Pieces that data of any kind can fill in are filled in by every record. -/
theorem Record.exists_takeByName (r : Record) (message : Text) {ps : List Piece}
    (h : ∀ p ∈ ps, p.isSafe = true) (whole : Option Datum) :
    ∃ texts, takeByName (r.fields message) whole ps = some texts := by
  induction ps generalizing whole with
  | nil => exact ⟨[], by rw [takeByName]⟩
  | cons p ps ih =>
    obtain ⟨hp, hps⟩ := List.forall_mem_cons.1 h
    cases p with
    | literal s =>
      obtain ⟨texts, htexts⟩ := ih hps whole
      exact ⟨.singleton s :: texts, by rw [takeByName, htexts]; rfl⟩
    | conversion field c =>
      cases field with
      | none => cases hp
      | some name =>
        obtain ⟨hletter, hname⟩ : c.letter ∈ ['s', 'r', 'a'] ∧ name ∈ fieldNames := by
          simpa [Piece.isSafe] using hp
        obtain ⟨d, hd⟩ := r.exists_lookup message hname
        obtain ⟨text, htext⟩ := Conversion.exists_write hletter d
        obtain ⟨texts, htexts⟩ := ih hps none
        exact ⟨text :: texts, by simp [takeByName, hd, htext, htexts]⟩

namespace Layout

/-- **A layout of symbols and conversions to texts applies** if it names fields of records. -/
theorem applies_of_safe {l : Layout}
    (h : (pieces? l.text).any fun ps => ps.all Piece.isSafe) : l.Applies := by
  intro r hmessage
  obtain ⟨ps, hps, hsafe⟩ : ∃ ps, pieces? l.text = some ps ∧ ps.all Piece.isSafe = true := by
    simpa [Option.any_eq_true] using h
  obtain ⟨message, hmessage⟩ := Option.isSome_iff_exists.1 hmessage
  obtain ⟨texts, htexts⟩ := r.exists_takeByName message (List.all_eq_true.1 hsafe)
    (some (.record (r.fields message)))
  exact ⟨.join texts, by simp [render?, fillByName?, hmessage, hps, htexts]⟩

theorem applies_standard : standard.Applies := applies_of_safe (by decide +kernel)

end Layout

/-! ### Outputs -/

/-- A stream, and the layout in which records go there. -/
structure Output where
  layout : Layout
  stream : Stream

/-- Where a logger writes as it is created: the error stream, in the standard layout. -/
def Output.standard : Output := ⟨.standard, .errors⟩

/-- Where a handler writes. -/
def Handler.output (h : Handler) : Output := ⟨h.layout, h.stream⟩

/-- Where a logger writes. -/
def Logger.output (l : Logger) : Output := (l.handlers.head?.map Handler.output).getD .standard

@[simp] theorem Logger.output_create (name : Text) (level : Level) :
    (create name level).output = .standard := rfl

@[simp] theorem Logger.output_withLevel (l : Logger) (level : Level) :
    (l.withLevel level).output = l.output := by
  rw [output, output, withLevel, List.head?_map, Option.map_map]
  rfl

/-- The output that a command asks for, if its layout is taken. -/
def Command.output? : Command → Option Output
  | .configure _ layout stream => (Layout.ofValue layout).toOption.map (⟨·, stream⟩)
  | _ => none

namespace Session

variable {s : Session}

/-- **Where the records of a name go**: where its logger writes, or will once it is created. -/
def output (s : Session) (name : Text) : Output := ((s.find? name).map (·.output)).getD .standard

/-- What a command configures: the output it asks for, unless it is refused. -/
def configured? (s : Session) (c : Command) : Option Output :=
  match (s.perform c).1.refusal with
  | some _ => none
  | none => c.output?

/-- What commands configure one after the other, from the time on when there is a logger of the
name. -/
def configuredSince (s : Session) (name : Text) : List Command → List Output
  | [] => []
  | c :: commands =>
    (if (s.find? name).isSome then (s.configured? c).toList else []) ++
      (s.perform c).2.configuredSince name commands

/-! #### One command -/

/-- A change of all loggers that keeps their names changes the logger of a name. -/
theorem find?_map (s : Session) {f : Logger → Logger} (hname : ∀ l, (f l).name = l.name)
    (level : Level) (name : Text) :
    find? ⟨s.loggers.map f, level⟩ name = (s.find? name).map f := by
  rw [find?, find?, List.find?_map]
  simp only [Function.comp_def, hname]

/-- A change of level changes no output. -/
theorem output_map_withLevel (s : Session) (level : Level) (name : Text) :
    output ⟨s.loggers.map (·.withLevel level), level⟩ name = s.output name := by
  rw [output, output, s.find?_map fun l => l.name_withLevel level, Option.map_map]
  simp only [Function.comp_def, Logger.output_withLevel]

/-- A new handler is the output of the loggers that there are. -/
theorem output_map_withHandler (s : Session) (h : Handler) (name : Text) :
    output ⟨s.loggers.map (·.withHandler h), h.level⟩ name =
      if (s.find? name).isSome then h.output else s.output name := by
  rw [output, output, s.find?_map fun l => l.name_withHandler h, Option.map_map]
  cases s.find? name <;> rfl

/-- The logger asked for is the one of its full name from then on. -/
theorem find?_get (s : Session) (name : Option Text) :
    (s.get name).2.2.find? (fullName name) = some (s.get name).1 := by
  rw [get]
  cases hfind : s.find? (fullName name) with
  | some l => exact hfind
  | none =>
    rw [find?] at hfind ⊢
    rw [List.find?_append, hfind]
    simp

/-- Asking for a logger changes no output: a logger that is created writes where it was bound to. -/
theorem output_get (s : Session) (asked : Option Text) (name : Text) :
    (s.get asked).2.2.output name = s.output name := by
  rcases s.get_cases asked with ⟨l, -, -, hget⟩ | ⟨-, hget⟩
  · rw [hget]
  · rw [hget, output, output, find?, find?, List.find?_append]
    cases hfind : s.loggers.find? fun l => l.name = name with
    | some l => rfl
    | none =>
      by_cases hname : fullName asked = name <;> simp [hname]

/-- **What a command does to an output**: a configuration takes its place if there is a logger of
the name, and nothing else does. -/
theorem output_perform (s : Session) (c : Command) (name : Text) :
    (s.perform c).2.output name =
      (if (s.find? name).isSome then s.configured? c else none).getD (s.output name) := by
  cases c with
  | get asked => simpa [configured?, Command.output?, perform] using s.output_get asked name
  | setLevel v =>
    rcases s.setLevel_eq v with ⟨e, -, hset⟩ | ⟨level, -, hset⟩
    · simp [configured?, perform, settle, hset]
    · simpa [configured?, Command.output?, perform, settle, hset]
        using s.output_map_withLevel level name
  | configure v layout stream =>
    rcases s.configure_eq v layout stream with ⟨e, hset⟩ | ⟨h, -, hlayout, rfl, hset⟩
    · simp [configured?, perform, settle, hset]
    · have hconfigured : s.configured? (.configure v layout h.stream) = some h.output := by
        simp [configured?, Command.output?, perform, settle, hset, hlayout, Except.toOption,
          Handler.output]
      have hafter : (s.perform (.configure v layout h.stream)).2 =
          ⟨s.loggers.map (·.withHandler h), h.level⟩ := by
        simp [perform, settle, hset]
      rw [hconfigured, hafter, s.output_map_withHandler]
      split <;> rfl
  | emit asked level message =>
    simpa [configured?, Command.output?, perform, emit] using s.output_get asked name
  | record events => simp [configured?, Command.output?, perform]

/-! #### Lists of commands -/

/-- **What a session does to an output**: the last configuration since there is a logger of the name
takes its place. -/
theorem output_performAll (s : Session) (commands : List Command) (name : Text) :
    (s.performAll commands).output name =
      (s.configuredSince name commands).getLast?.getD (s.output name) := by
  induction commands generalizing s with
  | nil => rfl
  | cons c commands ih =>
    rw [performAll_cons, ih, output_perform, configuredSince]
    cases (s.perform c).2.configuredSince name commands with
    | nil =>
      split
      · cases s.configured? c <;> rfl
      · rfl
    | cons first others => simp [List.getLast?_cons]

/-- What commands configure is what one of them asks for. -/
theorem exists_of_mem_configuredSince {commands : List Command} {name : Text} {o : Output}
    (h : o ∈ s.configuredSince name commands) : ∃ c ∈ commands, c.output? = some o := by
  induction commands generalizing s with
  | nil => cases h
  | cons c commands ih =>
    rw [configuredSince, List.mem_append] at h
    rcases h with h | h
    · refine ⟨c, List.mem_cons_self, ?_⟩
      split at h
      · rw [configured?] at h
        split at h
        · cases h
        · simpa using h
      · cases h
    · obtain ⟨c', hc', ho⟩ := ih h
      exact ⟨c', List.mem_cons_of_mem _ hc', ho⟩

/-! ### Records -/

/-- **A record is written once or not at all.**  In a coherent session at a level above zero, a
record of a logger that exists is written to the output of the logger, and nowhere else, if it
reaches the level; loggers above take no part. -/
theorem Coherent.write_eq (hs : s.Coherent) (hlevel : 1 ≤ s.defaultLevel.value) {r : Record}
    {l : Logger} (hl : s.find? r.logger = some l) {text : Text}
    (htext : (s.output r.logger).layout.render? r = some text) :
    s.write r = if s.defaultLevel.value ≤ r.level.value then
      [((s.output r.logger).stream, text ++ "\n")] else [] := by
  have hfollows : l.Follows s.defaultLevel := hs.follows l (List.mem_of_find?_eq_some hl)
  obtain ⟨h, hhandlers, hhandler⟩ := hfollows.handler
  have houtput : s.output r.logger = h.output := by
    simp [output, hl, Logger.output, hhandlers]
  have hpath : s.path r.logger = l :: (namesAbove r.logger).filterMap s.find? := by
    rw [path, List.filterMap_cons, hl]
  have heffective : s.effectiveLevel r.logger = s.defaultLevel.value := by
    have hne : s.defaultLevel.value ≠ 0 := by omega
    simp [effectiveLevel, hpath, hfollows.level_eq, hne]
  have hreceivers : receivers (s.path r.logger) = [l] := by
    simp [hpath, receivers, hfollows.silent]
  rw [houtput] at htext ⊢
  rw [write, heffective, hreceivers, List.flatMap_singleton, hhandlers]
  by_cases hreached : s.defaultLevel.value ≤ r.level.value
  · have hpos : 0 < r.level.value := by omega
    have hwrite : Handler.write? h r = some (h.output.stream, text ++ "\n") := by
      rw [Handler.write?, hhandler, if_pos hreached]
      exact congrArg _ htext
    simp [hpos, hreached, hwrite]
  · simp [hreached]

/-- At the start all names have the standard output. -/
theorem output_initial (name : Text) : initial.output name = .standard := by
  rw [output, find?, initial]
  by_cases hname : solverName = name <;> simp [hname]

/-- **What a session does with a record.**  After any commands that leave the level at one or more,
in layouts that every record can fill in, a message through the logger of any name is written once
if its level reaches that of the session, and not at all otherwise.  It is written where the last
configuration since the logger was created says, or to the error stream in the standard layout if
there was none. -/
theorem emit_delivers_once (commands : List Command)
    (happlies : ∀ c ∈ commands, ∀ o, c.output? = some o → o.layout.Applies)
    (hlevel : 1 ≤ (initial.performAll commands).defaultLevel.value) (name : Option Text)
    (level : Level) (message : Value) :
    let s := initial.performAll commands
    let o := (initial.configuredSince (fullName name) commands).getLast?.getD .standard
    ∃ text, o.layout.render? ⟨fullName name, level, message, []⟩ = some text ∧
      (s.perform (.emit name level message)).1.written =
        if s.defaultLevel.value ≤ level.value then [(o.stream, text ++ "\n")] else [] := by
  intro s o
  have hs : s.Coherent := coherent_initial.performAll commands
  have hlayout : o.layout.Applies := by
    cases hlast : (initial.configuredSince (fullName name) commands).getLast? with
    | none =>
      have ho : o = .standard := by simp [o, hlast]
      exact ho ▸ Layout.applies_standard
    | some last =>
      have ho : o = last := by simp [o, hlast]
      obtain ⟨c, hc, hlast⟩ := exists_of_mem_configuredSince (List.mem_of_getLast? hlast)
      exact ho ▸ happlies c hc last hlast
  obtain ⟨text, htext⟩ := hlayout ⟨fullName name, level, message, []⟩ rfl
  -- The logger is created now if there is none yet; its output is the same before and after.
  have hafter : (s.get name).2.2.Coherent := hs.step (s.step_get name)
  have hsame : (s.get name).2.2.defaultLevel = s.defaultLevel :=
    (s.step_get name).defaultLevel_eq
  have houtput : (s.get name).2.2.output (fullName name) = o := by
    rw [output_get, output_performAll, output_initial]
  have hname : (s.get name).1.name = fullName name := (s.get_mem name).2
  have hwrite := hafter.write_eq (hsame ▸ hlevel) (r := ⟨fullName name, level, message, []⟩)
    (s.find?_get name) (houtput ▸ htext)
  rw [houtput, hsame] at hwrite
  refine ⟨text, htext, ?_⟩
  rw [← hwrite, ← hname]
  rfl

/-- A layout of the message alone. -/
def bareLayout : Layout := ⟨"%(message)s", by decide +kernel⟩

/-- A parent and a child that are both there, configured to write bare messages to a buffer, and a
sibling that is created later and writes to the error stream. -/
theorem emit_delivers_once_parent_child :
    let commands : List Command :=
      [.get none, .configure (.whole 20) (.text "%(message)s") (.buffer 1), .get (some "late")]
    let s := initial.performAll commands
    (∀ c ∈ commands, ∀ o, c.output? = some o → o.layout.Applies) ∧ 1 ≤ s.defaultLevel.value ∧
      (s.perform (.emit (some "hsdlp.solver") (.number 20) (.text "done"))).1.written =
        [(Stream.buffer 1, Text.ofString "done" ++ "\n")] ∧
      (s.perform (.emit none (.number 10) (.text "done"))).1.written = [] ∧
      (s.perform (.emit (some "late") (.number 30) (.text "done"))).1.written =
        [(Stream.errors, Text.ofString "[WARNING] hsdlp.late: done" ++ "\n")] := by
  intro commands s
  have happlies : ∀ c ∈ commands, ∀ o, c.output? = some o → o.layout.Applies := by
    intro c hc o ho
    have hbare : o = ⟨bareLayout, .buffer 1⟩ := by
      simp only [commands, List.mem_cons, List.not_mem_nil, or_false] at hc
      rcases hc with rfl | rfl | rfl
      · cases ho
      · exact (Option.some.inj ho).symm
      · cases ho
    rw [hbare]
    exact Layout.applies_of_safe (by decide +kernel)
  have hlevel : 1 ≤ s.defaultLevel.value := by decide +kernel
  obtain ⟨text₁, htext₁, hsolver⟩ := emit_delivers_once commands happlies hlevel
    (some "hsdlp.solver") (.number 20) (.text "done")
  obtain ⟨text₂, -, hroot⟩ := emit_delivers_once commands happlies hlevel none (.number 10)
    (.text "done")
  obtain ⟨text₃, htext₃, hlate⟩ := emit_delivers_once commands happlies hlevel (some "late")
    (.number 30) (.text "done")
  have hbare : some text₁ = some (Text.ofString "done") := htext₁.symm.trans (by decide +kernel)
  have hstandard : some text₃ = some (Text.ofString "[WARNING] hsdlp.late: done") :=
    htext₃.symm.trans (by decide +kernel)
  obtain rfl := Option.some.inj hbare
  obtain rfl := Option.some.inj hstandard
  exact ⟨happlies, hlevel, hsolver, hroot, hlate⟩

end Session

end SelfDual.Journal
