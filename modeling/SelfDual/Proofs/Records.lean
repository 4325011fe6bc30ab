import SelfDual.Proofs.Course
/-!
**The records of a solve.**

A solve is recorded in its history, in its log, in what the callback is shown and in what is
printed.  All of them are written by the iterations that are accepted, one item for each, and
therefore agree.

Main definitions:

* `Event.iteration?`, `Event.snapshot?`, `Event.printed?` — what the records keep of an event;
* `Run.Records` — the records of a solve agree with its accepted iterations.

Main results:

* `Run.Course.filterMap_events` — what can be read off the events of a solve;
* `Run.observed_mem_after_iff` — **what the callback has been shown**;
* `Run.Course.advances_eq`, `Run.Course.unique` — a loop has one course;
* `Run.stops_for_first_reason` — **a sound run stops for the first reason**, and its records agree.
-/

set_option autoImplicit false

namespace SelfDual

variable {R : Type} [Scalar R]

namespace Event

/-- An accepted iteration with its number. -/
def iteration? : Event R → Option (Nat × Advance R)
  | iterated nit a => some (nit, a)
  | _ => none

/-- What the callback has been shown. -/
def snapshot? : Event R → Option (Snapshot R)
  | observed snapshot => some snapshot
  | _ => none

/-- What is printed. -/
def printed? : Event R → Option (Event R)
  | header => some header
  | row indicators alpha => some (row indicators alpha)
  | _ => none

end Event

namespace Run

variable {run : Run R} {start : Indicators R} {as : List (Advance R)} {a : Advance R}

/-! ### What can be read off the events -/

/-- The events of a solve are the opening, the reports of the accepted iterations, and the report
of how it has ended. -/
theorem Course.events_eq {s : Progress R} {stop : Stop} (h : run.Course start as s (.ok stop)) :
    ∃ last, s.events = run.opening start ++ run.rounds as ++ last ∧
      (last = [] ∨ ∃ b, last = [.brokeDown s.nit b]) := by
  cases h with
  | breakdown before step => exact ⟨_, rfl, .inr ⟨_, rfl⟩⟩
  | decision before step answer reason => exact ⟨[], (List.append_nil _).symm, .inl rfl⟩

/-- **What can be read off the events of a solve**, if neither a breakdown nor the end of the solve
is read: what can be read off the opening and off the reports of the accepted iterations. -/
theorem Course.filterMap_events {s : Progress R} {stop : Stop} {α : Type} {f : Event R → Option α}
    (h : run.Course start as s (.ok stop))
    (hstart : indicators .off run.problem (.blindStart run.problem.m run.problem.n) = .ok start)
    (hbroke : ∀ nit b, f (.brokeDown nit b) = none)
    (hclosed : ∀ nit message, f (.closed nit message) = none) :
    run.solve.events.filterMap f =
      (run.opening start).filterMap f ++ (run.rounds as).filterMap f := by
  obtain ⟨last, hevents, hlast⟩ := h.events_eq
  have hlast : last.filterMap f = [] := by
    rcases hlast with rfl | ⟨b, rfl⟩
    · rfl
    · simp [hbroke]
  rw [h.solve_eq hstart, hevents]
  simp [List.filterMap_append, hlast, hclosed]

/-- If one item is read off the report of each iteration, these are the items. -/
theorem filterMap_rounds {α : Type} {f : Event R → Option α} {g : Nat → Advance R → α}
    (h : ∀ nit, ∀ a ∈ as, (Event.iterated nit a :: run.shown nit a).filterMap f = [g nit a]) :
    (run.rounds as).filterMap f = as.mapIdx fun i a => g (i + 1) a := by
  induction as using List.reverseRecOn with
  | nil => rfl
  | append_singleton as a ih =>
    rw [rounds_snoc, List.filterMap_append, h _ a (by simp), List.mapIdx_concat,
      ih fun nit a ha => h nit a (List.mem_append_left _ ha)]

/-- If nothing is read off any report, there are no items. -/
theorem filterMap_rounds_eq_nil {α : Type} {f : Event R → Option α}
    (h : ∀ nit a, (Event.iterated nit a :: run.shown nit a).filterMap f = []) :
    (run.rounds as).filterMap f = [] := by
  induction as using List.reverseRecOn with
  | nil => rfl
  | append_singleton as a ih => rw [rounds_snoc, List.filterMap_append, h, ih, List.append_nil]

/-! ### What the callback is shown -/

/-- The number of the iteration that a callback is shown. -/
theorem nit_of_snapshot {nit : Nat} {snapshot : Snapshot R} (h : a.snapshot nit = .ok snapshot) :
    snapshot.nit = nit := by
  obtain ⟨x, -, hx⟩ := exists_of_bind h
  rw [← Except.ok.inj hx]

theorem observed_mem_shown_iff {nit : Nat} {snapshot : Snapshot R} :
    .observed snapshot ∈ run.shown nit a ↔
      run.callback.isSome ∧ a.snapshot nit = .ok snapshot := by
  rw [shown]
  cases run.callback <;> cases a.snapshot nit <;> split <;> simp [eq_comm]

/-- **What the callback has been shown** where a loop stands: every accepted iteration that can be
shown, and nothing else. -/
theorem observed_mem_after_iff {snapshot : Snapshot R} :
    .observed snapshot ∈ (run.after start as).events ↔
      run.callback.isSome ∧
        ∃ (i : Nat) (a : Advance R), as[i]? = some a ∧ a.snapshot (i + 1) = .ok snapshot := by
  have hopening : .observed snapshot ∉ run.opening start := by
    rw [opening]
    split <;> simp
  constructor
  · intro h
    obtain ⟨l, hl, hmem⟩ := List.mem_flatten.1 ((List.mem_append.1 h).resolve_left hopening)
    obtain ⟨i, hi, rfl⟩ := List.mem_mapIdx.1 hl
    have hshown : .observed snapshot ∈ run.shown (i + 1) as[i] := by simpa using hmem
    obtain ⟨hcallback, hsnapshot⟩ := observed_mem_shown_iff.1 hshown
    exact ⟨hcallback, i, as[i], List.getElem?_eq_getElem hi, hsnapshot⟩
  · rintro ⟨hcallback, i, a, ha, hsnapshot⟩
    obtain ⟨hi, rfl⟩ := List.getElem?_eq_some_iff.1 ha
    have hshown := observed_mem_shown_iff.2 ⟨hcallback, hsnapshot⟩
    exact List.mem_append_right _ (List.mem_flatten.2
      ⟨_, List.mem_mapIdx.2 ⟨i, hi, rfl⟩, List.mem_cons_of_mem _ hshown⟩)

/-- What a loop has reported where it stands is among the events of the solve. -/
theorem Course.mem_events {s : Progress R} {answer : Except Error Stop} {event : Event R}
    (h : run.Course start as s answer)
    (hstart : indicators .off run.problem (.blindStart run.problem.m run.problem.n) = .ok start)
    (hevent : event ∈ (run.after start as).events) : event ∈ run.solve.events := by
  have hs : event ∈ s.events := by
    cases h with
    | breakdown before step => exact List.mem_append_left _ hevent
    | _ => exact hevent
  rw [solve, hstart]
  dsimp only
  rw [solveFrom, loop_of_course h]
  cases answer with
  | error e => exact hs
  | ok stop => exact List.mem_append_left _ hs

/-! ### Records -/

theorem filterMap_iteration?_shown (run : Run R) (nit : Nat) (a : Advance R) :
    (run.shown nit a).filterMap Event.iteration? = [] := by
  rw [shown]
  split <;> split <;> rfl

theorem filterMap_printed?_shown (run : Run R) (nit : Nat) (a : Advance R) :
    (run.shown nit a).filterMap Event.printed? =
      if run.options.verbose then [.row a.indicators (some a.alpha)] else [] := by
  rw [shown]
  split <;> split <;> rfl

theorem filterMap_snapshot?_shown (run : Run R) (nit : Nat) (a : Advance R) :
    (run.shown nit a).filterMap Event.snapshot? =
      if run.callback.isSome then (a.snapshot nit).toOption.toList else [] := by
  rw [shown]
  cases run.callback <;> cases a.snapshot nit <;> split <;> rfl

/-- What can be read off the opening, if the beginning of the solve is not read. -/
theorem filterMap_opening {α : Type} {f : Event R → Option α} (run : Run R) (start : Indicators R)
    (hopened : ∀ m n backend, f (.opened m n backend) = none) :
    (run.opening start).filterMap f =
      if run.options.verbose then [.header, .row start none].filterMap f else [] := by
  have hbegin :
      [Event.opened run.problem.m run.problem.n run.options.backend].filterMap f = [] := by
    simp [hopened]
  rw [opening, List.filterMap_append, hbegin, List.append_nil]
  split <;> rfl

/-- **The records of a solve agree** with its accepted iterations. -/
structure Records (run : Run R) (start : Indicators R) (as : List (Advance R)) (r : Result R) :
    Prop where
  nit_pos : 1 ≤ r.nit
  nit_le : r.nit ≤ run.options.maxiter
  message : r.message =
    if r.stop = .callback then "Optimization terminated by the callback."
    else if r.stop = .timeLimit then "The time limit was reached before the algorithm converged."
    else r.status.message
  history : r.history = as.map (·.indicators)
  length_history : r.history.length = if r.status = .numericalError then r.nit - 1 else r.nit
  objective : r.objective = (r.history.getLast?.getD start).obj
  logged : run.solve.events.filterMap Event.iteration? = as.mapIdx fun i a => (i + 1, a)
  observed : (run.solve.events.filterMap Event.snapshot?).map .ok =
    if run.callback.isSome then as.mapIdx fun i a => a.snapshot (i + 1) else []
  printed : run.solve.events.filterMap Event.printed? =
    if run.options.verbose then
      .header :: .row start none :: as.map fun a => .row a.indicators (some a.alpha)
    else []
  closed : run.solve.events.getLast? = some (.closed r.nit r.message)

section Observers

variable {s : Progress R} {stop : Stop} (h : run.Course start as s (.ok stop))
  (hstart : indicators .off run.problem (.blindStart run.problem.m run.problem.n) = .ok start)

include h hstart

/-- The log has the accepted iterations in order. -/
theorem Course.logged :
    run.solve.events.filterMap Event.iteration? = as.mapIdx fun i a => (i + 1, a) := by
  rw [h.filterMap_events hstart (fun _ _ => rfl) fun _ _ => rfl,
    run.filterMap_opening start fun _ _ _ => rfl,
    filterMap_rounds (g := fun nit a => (nit, a)) fun nit a _ => ?_]
  · split <;> rfl
  · exact congrArg _ (run.filterMap_iteration?_shown nit a)

/-- What is printed has a row for the start and one for each accepted iteration. -/
theorem Course.printed :
    run.solve.events.filterMap Event.printed? =
      if run.options.verbose then
        .header :: .row start none :: as.map fun a => .row a.indicators (some a.alpha)
      else [] := by
  rw [h.filterMap_events hstart (fun _ _ => rfl) fun _ _ => rfl,
    run.filterMap_opening start fun _ _ _ => rfl]
  split
  case isTrue hverbose =>
    have hrounds : (run.rounds as).filterMap Event.printed? =
        as.mapIdx fun _ a => .row a.indicators (some a.alpha) := by
      refine filterMap_rounds (g := fun _ a => Event.row a.indicators (some a.alpha)) ?_
      exact fun nit a _ => (run.filterMap_printed?_shown nit a).trans (if_pos hverbose)
    have hmap : (as.mapIdx fun _ a => Event.row a.indicators (some a.alpha)) =
        as.map fun a => .row a.indicators (some a.alpha) :=
      List.ext_getElem (by simp) fun i _ _ => by simp
    rw [hrounds, hmap]
    rfl
  case isFalse hverbose =>
    rw [List.nil_append]
    refine filterMap_rounds_eq_nil fun nit a => ?_
    exact (run.filterMap_printed?_shown nit a).trans (if_neg hverbose)

/-- The callback has been shown each accepted iteration, in order. -/
theorem Course.observed (hk : run.kernels.Sound run.problem) :
    (run.solve.events.filterMap Event.snapshot?).map .ok =
      if run.callback.isSome then as.mapIdx fun i a => a.snapshot (i + 1) else [] := by
  have hopening : (run.opening start).filterMap Event.snapshot? = [] := by
    rw [run.filterMap_opening start fun _ _ _ => rfl]
    split <;> rfl
  rw [h.filterMap_events hstart (fun _ _ => rfl) fun _ _ => rfl, hopening, List.nil_append]
  cases hcallback : run.callback with
  | none =>
    rw [filterMap_rounds_eq_nil fun nit a => ?_]
    · rfl
    · refine (run.filterMap_snapshot?_shown nit a).trans ?_
      rw [hcallback]
      rfl
  | some callback =>
    rw [List.map_filterMap]
    refine filterMap_rounds (g := fun nit a => a.snapshot nit) fun nit a ha => ?_
    obtain ⟨snapshot, hsnapshot⟩ := exists_snapshot (h.fits hk a ha) nit
    have hround : (Event.iterated nit a :: run.shown nit a).filterMap Event.snapshot? =
        [snapshot] := by
      refine (run.filterMap_snapshot?_shown nit a).trans ?_
      rw [hcallback, hsnapshot]
      rfl
    rw [← List.map_filterMap, hround, hsnapshot]
    rfl

end Observers

/-- The accepted iterations where a loop stands are those that its events report. -/
theorem advances_after (run : Run R) (start : Indicators R) (as : List (Advance R)) :
    Event.advances (run.after start as).events = as := by
  have hrounds : (run.rounds as).filterMap Event.advance? = as.mapIdx fun _ a => a := by
    refine filterMap_rounds (g := fun _ a => a) fun nit a _ => congrArg (a :: ·) ?_
    rw [shown]
    split <;> split <;> rfl
  rw [after, Event.advances_append, advances_opening, List.nil_append]
  exact hrounds.trans (List.ext_getElem (by simp) fun i _ _ => by simp)

/-- The accepted iterations of a course are those that its events report. -/
theorem Course.advances_eq {s : Progress R} {answer : Except Error Stop}
    (h : run.Course start as s answer) : Event.advances s.events = as := by
  cases h with
  | breakdown before step =>
    rw [Progress.breakDown, Event.advances_append, advances_after]
    exact List.append_nil _
  | _ => exact run.advances_after start _

/-- The accepted iterations of a solve are those of its course. -/
theorem Course.advances_solve {s : Progress R} {answer : Except Error Stop}
    (h : run.Course start as s answer)
    (hstart : indicators .off run.problem (.blindStart run.problem.m run.problem.n) = .ok start) :
    run.solve.advances = as := by
  rw [Outcome.advances, solve, hstart]
  dsimp only
  rw [solveFrom, loop_of_course h]
  cases answer with
  | error e => exact h.advances_eq
  | ok stop =>
    rw [Event.advances_append, h.advances_eq]
    exact List.append_nil as

/-- **A loop has one course.** -/
theorem Course.unique {as' : List (Advance R)} {s s' : Progress R}
    {answer answer' : Except Error Stop} (h : run.Course start as s answer)
    (h' : run.Course start as' s' answer') : as' = as ∧ s' = s ∧ answer' = answer := by
  obtain ⟨hs, hanswer⟩ := Prod.mk.inj ((loop_of_course h').symm.trans (loop_of_course h))
  exact ⟨by rw [← h'.advances_eq, ← h.advances_eq, hs], hs, hanswer⟩

/-- A result of a course with sound kernels has its records. -/
theorem Course.records (hk : run.kernels.Sound run.problem)
    (hstart : indicators .off run.problem (.blindStart run.problem.m run.problem.n) = .ok start)
    {s : Progress R} {r : Result R} (h : run.Course start as s (.ok r.stop))
    (hr : s.result run.problem run.options.tol r.stop = .ok r) : run.Records start as r := by
  obtain ⟨-, hnit, hobjective, hhistory⟩ := Progress.fields_of_result hr
  obtain ⟨-, hindicators, hlist⟩ := h.fields_eq
  obtain ⟨hpos, hle⟩ := h.nit_bounds
  have hrecord : r.history = as.map (·.indicators) := hhistory.trans hlist
  constructor
  case nit_pos => rwa [hnit]
  case nit_le => rwa [hnit]
  case message =>
    rw [Result.message, Result.status]
    cases r.stop <;> rfl
  case history => exact hrecord
  case length_history =>
    rw [hrecord, List.length_map, hnit, Result.status]
    rcases h.nit_cases with ⟨hstop, hlength⟩ | ⟨hstop, hlength⟩
    · rw [hstop, hlength]
      rfl
    · have hstatus : r.stop.status ≠ .numericalError := fun hstatus =>
        hstop (Stop.eq_of_status (hstatus.trans (rfl : _ = Stop.breakdown.status)) (by decide))
      rw [if_neg hstatus, hlength]
  case objective =>
    rw [hobjective, hindicators, hrecord, after, List.getLast?_map]
  case logged => exact h.logged hstart
  case observed => exact h.observed hstart hk
  case printed => exact h.printed hstart
  case closed =>
    rw [h.solve_eq hstart, List.getLast?_concat, hnit]
    rfl

/-- **A sound run stops for the first reason**, and its records agree.  Its loop has one course: it
goes on after some iterations, then the next one breaks down, or gives a reason to stop that none of
the reasons before it precedes.  The result has at least one iteration and at most as many as the
options allow; its history has the indicators of the accepted iterations; the log, what the callback
is shown and what is printed have one item for each of them, in order. -/
theorem stops_for_first_reason (run : Run R) {start : Indicators R} (h : run.Sound start) :
    ∃ r as s, run.solve.result = .ok r ∧ run.Course start as s (.ok r.stop) ∧
      (∀ as' s' answer', run.Course start as' s' answer' → as' = as ∧ answer' = .ok r.stop) ∧
      run.Records start as r := by
  obtain ⟨as, s, stop, hcourse⟩ := h.exists_course
  obtain ⟨r, hr⟩ := hcourse.exists_result h.kernels
  obtain rfl := (Progress.fields_of_result hr).1
  refine ⟨r, as, s, ?_, hcourse, fun as' s' answer' hcourse' => ?_,
    hcourse.records h.kernels h.start hr⟩
  · rw [hcourse.solve_eq h.start]
    exact hr
  · obtain ⟨has, -, hanswer⟩ := hcourse.unique hcourse'
    exact ⟨has, hanswer⟩

end Run

/-- A run that breaks down in the third iteration has two entries in its history and in its log. -/
theorem stops_for_first_reason_counting :
    ∃ r, (Run.counting 2).solve.result = .ok r ∧ r.stop = .breakdown ∧ r.nit = 3 ∧
      r.message = Status.numericalError.message ∧ r.history.length = 2 ∧
      ((Run.counting 2).solve.events.filterMap Event.iteration?).length = 2 := by
  obtain ⟨r, as, s, hr, -, hunique, hrecords⟩ :=
    Run.stops_for_first_reason _ (Run.sound_counting 2)
  obtain ⟨rfl, hanswer⟩ := hunique _ _ _ (Run.course_counting (show 2 < 1000 by decide))
  have hstop : r.stop = .breakdown := (Except.ok.inj hanswer).symm
  have hstatus : r.status = .numericalError := congrArg Stop.status hstop
  have hlength : r.history.length = 2 := by
    rw [hrecords.history]
    rfl
  have hnit : r.history.length = r.nit - 1 := by
    rw [hrecords.length_history, if_pos hstatus]
  refine ⟨r, hr, hstop, ?_, congrArg Stop.message hstop, hlength, ?_⟩
  · have hpos := hrecords.nit_pos
    omega
  · rw [hrecords.logged, List.length_mapIdx]
    rfl

end SelfDual
