import SelfDual.Solve.Result
/-!
**The path of a solve.**

The events of a solve report every iteration that has been accepted.  This module shows that these
iterations form a path: each starts at the point that the one before has reached, and the solve
ends at the point that the last one has reached.  What is said here holds for any scalars and any
kernels; facts about one iteration become facts about solves of any length through it.

Main definitions:

* `Event.advances` — the accepted iterations that events report;
* `Kernels.Path` — iterations that lead from one point to another;
* `Run.Reached` — what every state of a loop keeps;
* `Run.Ending` — the ways in which a loop can end.

Main results:

* `Kernels.Path.invariant`, `Kernels.Path.exists_step` — **induction along a path**, and the
  iteration at a place of it;
* `Kernels.Path.unique` — paths of the same length are the same;
* `Run.Reached.accept`, `Run.Reached.observe`, `Run.Reached.breakDown` — the steps of a loop;
* `Run.ending_loop` — **a loop ends in one of these ways**, in a state that keeps all this;
* `Run.Ending.exists_breakdown` — it ends for a breakdown only where an iteration breaks down;
* `Run.exists_ending` — **the end of a solve**, its events and its result.
-/

set_option autoImplicit false

namespace SelfDual

variable {R : Type}

/-! ### Accepted iterations -/

namespace Event

/-- The accepted iteration that an event reports. -/
def advance? : Event R → Option (Advance R)
  | iterated _ a => some a
  | _ => none

/-- The accepted iterations that events report, in order. -/
def advances (events : List (Event R)) : List (Advance R) := events.filterMap advance?

theorem advances_append (es fs : List (Event R)) :
    advances (es ++ fs) = advances es ++ advances fs :=
  List.filterMap_append

end Event

/-- The accepted iterations of a solve. -/
def Outcome.advances (o : Outcome R) : List (Advance R) := Event.advances o.events

/-! ### Paths -/

namespace Kernels

variable [Scalar R]

/-- Iterations that lead from `start` to a point, each from where the one before has led. -/
inductive Path (k : Kernels R) (start : Iterate R) : List (Advance R) → Iterate R → Prop where
  | nil : Path k start [] start
  | snoc {as : List (Advance R)} {it : Iterate R} {a : Advance R} (path : Path k start as it)
      (step : k.advance it = .ok a) : Path k start (as ++ [a]) a.point

namespace Path

variable {k : Kernels R} {start it : Iterate R} {as : List (Advance R)} {a : Advance R}

/-- **Induction along a path**: what one iteration preserves holds where the path ends. -/
theorem invariant {P : Iterate R → Prop} (h : k.Path start as it) (hstart : P start)
    (hstep : ∀ it a, P it → k.advance it = .ok a → P a.point) : P it := by
  induction h with
  | nil => exact hstart
  | snoc path step ih => exact hstep _ _ ih step

/-- The iteration at a place of a path starts where the part before it ends. -/
theorem exists_step (h : k.Path start as it) {i : Nat} (hi : as[i]? = some a) :
    ∃ it', k.Path start (as.take i) it' ∧ k.advance it' = .ok a := by
  induction h with
  | nil => cases hi
  | @snoc as it last path step ih =>
    -- The place is on the path before the last iteration, is that of the last one, or is none.
    rcases Nat.lt_trichotomy i as.length with hlt | rfl | hgt
    · rw [List.getElem?_append_left hlt] at hi
      rw [List.take_append_of_le_length (Nat.le_of_lt hlt)]
      exact ih hi
    · have hlast : last = a := by simpa using hi
      rw [List.take_left]
      exact ⟨it, path, hlast ▸ step⟩
    · rw [List.getElem?_eq_none (by simpa using Nat.succ_le_of_lt hgt)] at hi
      cases hi

/-- The end of a path is where its last iteration has led. -/
theorem last_point (h : k.Path start as it) :
    it = (as.getLast?.map (·.point)).getD start := by
  cases h with
  | nil => rfl
  | snoc path step => simp

/-- **Paths of the same length from one point are the same.** -/
theorem unique {bs : List (Advance R)} {it' : Iterate R} (h : k.Path start as it)
    (h' : k.Path start bs it') (hlength : as.length = bs.length) : as = bs ∧ it = it' := by
  induction h generalizing bs it' with
  | nil =>
    obtain rfl := List.length_eq_zero_iff.1 hlength.symm
    exact ⟨rfl, h'.last_point.symm⟩
  | snoc path step ih =>
    cases h' with
    | nil => simp at hlength
    | snoc path' step' =>
      obtain ⟨rfl, rfl⟩ := ih path' (by simpa using hlength)
      obtain rfl := Except.ok.inj (step.symm.trans step')
      exact ⟨rfl, rfl⟩

end Path

end Kernels

/-! ### States of a loop -/

/-- The callback has been shown what an iteration has reached. -/
structure Snapshot.Shows [Scalar R] (snapshot : Snapshot R) (a : Advance R) : Prop where
  x : a.point.solution .off = .ok snapshot.x
  alpha : snapshot.alpha = a.alpha
  indicators : snapshot.indicators = a.indicators

namespace Run

variable [Scalar R]

/-- **What every state of a loop keeps**: the accepted iterations are a path to the point, the
history are their indicators, the callback has been shown what they have reached, and no iteration
has broken down except at the point itself. -/
structure Reached (run : Run R) (s : Progress R) : Prop where
  path : run.kernels.Path (.blindStart run.problem.m run.problem.n) (Event.advances s.events)
    s.point
  history : s.history = (Event.advances s.events).map (·.indicators)
  observed : ∀ snapshot, .observed snapshot ∈ s.events →
    ∃ a ∈ Event.advances s.events, snapshot.Shows a
  brokeDown : ∀ nit b, .brokeDown nit b ∈ s.events →
    run.kernels.advance s.point = .error (.breakdown b)

variable {run : Run R} {s : Progress R} {a : Advance R} {b : Breakdown}

theorem advances_opening (run : Run R) (indicators : Indicators R) :
    Event.advances (run.opening indicators) = [] := by
  rw [opening]
  split <;> rfl

theorem reached_start (run : Run R) (indicators : Indicators R) :
    run.Reached (run.start indicators) := by
  constructor
  case path =>
    rw [start, run.advances_opening]
    exact .nil
  case history =>
    rw [start, run.advances_opening]
    rfl
  case observed =>
    intro snapshot h
    rw [start, opening] at h
    split at h <;> simp at h
  case brokeDown =>
    intro nit b h
    rw [start, opening] at h
    split at h <;> simp at h

/-- Before an iteration succeeds, none has broken down. -/
theorem Reached.brokeDown_not_mem (h : run.Reached s) (ha : run.kernels.advance s.point = .ok a)
    (nit : Nat) (b : Breakdown) : .brokeDown nit b ∉ s.events := by
  intro hmem
  have hb := h.brokeDown nit b hmem
  rw [ha] at hb
  cases hb

/-- An iteration is accepted. -/
theorem Reached.accept (h : run.Reached s) (ha : run.kernels.advance s.point = .ok a) :
    run.Reached (s.accept a) := by
  have hadvances : Event.advances (s.accept a).events = Event.advances s.events ++ [a] :=
    Event.advances_append _ _
  constructor
  case path =>
    rw [hadvances]
    exact .snoc h.path ha
  case history =>
    rw [hadvances, List.map_append, ← h.history]
    rfl
  case observed =>
    intro snapshot hmem
    have hold : .observed snapshot ∈ s.events := by simpa [Progress.accept] using hmem
    obtain ⟨a', ha', hshows⟩ := h.observed snapshot hold
    exact ⟨a', hadvances ▸ List.mem_append_left _ ha', hshows⟩
  case brokeDown =>
    intro nit b hmem
    have hold : .brokeDown nit b ∈ s.events := by simpa [Progress.accept] using hmem
    exact absurd hold (h.brokeDown_not_mem ha nit b)

/-- An iteration breaks down. -/
theorem Reached.breakDown (h : run.Reached s)
    (hb : run.kernels.advance s.point = .error (.breakdown b)) : run.Reached (s.breakDown b) := by
  have hadvances : Event.advances (s.breakDown b).events = Event.advances s.events := by
    rw [Progress.breakDown, Event.advances_append]
    exact List.append_nil _
  constructor
  case path =>
    rw [hadvances]
    exact h.path
  case history =>
    rw [hadvances]
    exact h.history
  case observed =>
    intro snapshot hmem
    have hold : .observed snapshot ∈ s.events := by simpa [Progress.breakDown] using hmem
    rw [hadvances]
    exact h.observed snapshot hold
  case brokeDown =>
    intro nit b' hmem
    have hcases : .brokeDown nit b' ∈ s.events ∨ nit = s.nit + 1 ∧ b' = b := by
      simpa [Progress.breakDown] using hmem
    rcases hcases with hold | ⟨-, rfl⟩
    · exact h.brokeDown nit b' hold
    · exact hb

/-- Something else is reported. -/
theorem Reached.report (h : run.Reached s) {events : List (Event R)}
    (hadvances : Event.advances events = [])
    (hobserved : ∀ snapshot, .observed snapshot ∈ events →
      ∃ a ∈ Event.advances s.events, snapshot.Shows a)
    (hbrokeDown : ∀ nit b, .brokeDown nit b ∉ events) : run.Reached (s.report events) := by
  have hsame : Event.advances (s.report events).events = Event.advances s.events := by
    rw [Progress.report, Event.advances_append, hadvances, List.append_nil]
  constructor
  case path =>
    rw [hsame]
    exact h.path
  case history =>
    rw [hsame]
    exact h.history
  case observed =>
    intro snapshot hmem
    rw [hsame]
    rcases List.mem_append.1 hmem with hold | hnew
    · exact h.observed snapshot hold
    · exact hobserved snapshot hnew
  case brokeDown =>
    intro nit b hmem
    rcases List.mem_append.1 hmem with hold | hnew
    · exact h.brokeDown nit b hold
    · exact absurd hnew (hbrokeDown nit b)

/-- An accepted iteration is shown to the user. -/
theorem Reached.observe (h : run.Reached s) (ha : run.kernels.advance s.point = .ok a) :
    run.Reached (run.observe (s.accept a) a.alpha).1 := by
  have hrows : run.Reached ((s.accept a).report
      (if run.options.verbose then [.row a.indicators (some a.alpha)] else [])) := by
    refine (h.accept ha).report ?_ ?_ ?_
    · split <;> rfl
    · intro snapshot hmem
      split at hmem <;> simp at hmem
    · intro nit b hmem
      split at hmem <;> simp at hmem
  have hlast : a ∈ Event.advances (s.accept a).events := by
    rw [Progress.accept, Event.advances_append]
    exact List.mem_append_right _ List.mem_cons_self
  rw [Run.observe]
  cases hcallback : run.callback with
  | none => exact hrows
  | some answer =>
    cases hx : a.point.solution .off with
    | error e => simpa [hx, Progress.accept, Progress.report] using hrows
    | ok x =>
      have hshown : run.Reached (((s.accept a).report
          (if run.options.verbose then [.row a.indicators (some a.alpha)] else [])).report
          [.observed ⟨s.nit + 1, a.alpha, a.indicators, x⟩]) := by
        refine hrows.report rfl ?_ (by simp)
        intro snapshot hmem
        have hsnapshot : snapshot = ⟨s.nit + 1, a.alpha, a.indicators, x⟩ := by simpa using hmem
        refine ⟨a, ?_, hsnapshot ▸ ⟨hx, rfl, rfl⟩⟩
        rw [Progress.report, Event.advances_append]
        exact List.mem_append_left _ hlast
      simpa [hx, Progress.accept, Progress.report] using hshown

/-! ### How a loop ends -/

/-- **How a loop can end**, in which state and with what answer. -/
inductive Ending (run : Run R) : Progress R → Except Error Stop → Prop where
  | limit {s : Progress R} (reached : run.Reached s) : Ending run s (.ok .iterationLimit)
  | breakdown {s : Progress R} {b : Breakdown} (reached : run.Reached s)
      (h : run.kernels.advance s.point = .error (.breakdown b)) :
      Ending run (s.breakDown b) (.ok .breakdown)
  | fault {s : Progress R} {e : Error} (reached : run.Reached s)
      (h : run.kernels.advance s.point = .error e) (hne : ∀ b, e ≠ .breakdown b) :
      Ending run s (.error e)
  | solution {s : Progress R} {e : Error} (reached : run.Reached s)
      (h : s.point.solution .off = .error e) : Ending run s (.error e)
  | callback {s : Progress R} {e : Error} {answer : Callback R} {snapshot : Snapshot R}
      (reached : run.Reached s) (hcallback : run.callback = some answer)
      (h : answer snapshot = .error e) : Ending run s (.error e)
  | verdict {s : Progress R} {wish : Bool} {e : Error} (reached : run.Reached s)
      (h : run.verdict s wish = .error e) : Ending run s (.error e)
  | stop {s : Progress R} {wish : Bool} {stop : Stop} (reached : run.Reached s)
      (h : run.verdict s wish = .ok (some stop)) : Ending run s (.ok stop)

/-- The state in which a loop ends is reached as well. -/
theorem Ending.reached {answer : Except Error Stop} (h : run.Ending s answer) : run.Reached s := by
  cases h with
  | limit reached => exact reached
  | breakdown reached h => exact reached.breakDown h
  | fault reached => exact reached
  | solution reached => exact reached
  | callback reached => exact reached
  | verdict reached => exact reached
  | stop reached => exact reached

/-- A report that fails is one of a point without a solution, or the callback has failed. -/
theorem ending_of_observe {s' : Progress R} {e : Error} (h : run.Reached s)
    (ha : run.kernels.advance s.point = .ok a)
    (hobserve : run.observe (s.accept a) a.alpha = (s', .error e)) : run.Ending s' (.error e) := by
  have hreached : run.Reached s' := by
    have hstate := h.observe ha
    rwa [hobserve] at hstate
  rw [observe] at hobserve
  cases hcallback : run.callback with
  | none => simp [hcallback] at hobserve
  | some answer =>
    cases hx : a.point.solution .off with
    | error e' =>
      simp only [hcallback, Progress.report, Progress.accept, hx, Prod.mk.injEq,
        Except.error.injEq] at hobserve
      obtain ⟨rfl, rfl⟩ := hobserve
      exact .solution hreached hx
    | ok x =>
      simp only [hcallback, Progress.report, Progress.accept, hx, Prod.mk.injEq] at hobserve
      exact .callback hreached hcallback hobserve.2

/-- **A loop that starts in a reached state ends in one of these ways.** -/
theorem ending_loop (h : run.Reached s) (left : Nat) :
    run.Ending (run.loop left s).1 (run.loop left s).2 := by
  -- One turn of the loop ends it, or leads from a reached state to a reached state.
  induction left generalizing s with
  | zero => exact .limit h
  | succ left ih =>
    cases ha : run.kernels.advance s.point with
    | error e =>
      cases e with
      | breakdown b => simpa [loop, ha] using Ending.breakdown h ha
      | _ => simpa [loop, ha] using Ending.fault h ha (by simp)
    | ok a =>
      have hnext := h.observe ha
      cases hobserve : run.observe (s.accept a) a.alpha with
      | mk s' answer =>
        rw [hobserve] at hnext
        cases answer with
        | error e => simpa [loop, ha, hobserve] using ending_of_observe h ha hobserve
        | ok wish =>
          cases hverdict : run.verdict s' wish with
          | error e => simpa [loop, ha, hobserve, hverdict] using Ending.verdict hnext hverdict
          | ok decision =>
            cases decision with
            | some reason =>
              simpa [loop, ha, hobserve, hverdict] using Ending.stop hnext hverdict
            | none => simpa [loop, ha, hobserve, hverdict] using ih hnext

/-- No verdict is a breakdown. -/
theorem verdict_ne_breakdown (run : Run R) (s : Progress R) (wish : Bool) :
    run.verdict s wish ≠ .ok (some .breakdown) := by
  intro h
  rw [verdict] at h
  split at h
  · cases h
  split at h
  · obtain ⟨dualObjective, -, hstop⟩ := exists_of_bind h
    split at hstop <;> cases hstop
  · split at h
    · cases h
    split at h
    · cases h
    split at h <;> cases h

/-- A loop ends for a breakdown only where an iteration breaks down. -/
theorem Ending.exists_breakdown (h : run.Ending s (.ok .breakdown)) :
    ∃ b, run.kernels.advance s.point = .error (.breakdown b) := by
  cases h with
  | breakdown reached h => exact ⟨_, h⟩
  | stop reached h => exact absurd h (run.verdict_ne_breakdown _ _)

/-- A loop whose first iteration breaks down ends there. -/
theorem loop_of_breakdown (hb : run.kernels.advance s.point = .error (.breakdown b)) {left : Nat}
    (hleft : 0 < left) : run.loop left s = (s.breakDown b, .ok .breakdown) := by
  cases left with
  | zero => cases hleft
  | succ left => rw [loop, hb]

/-! ### Solves -/

/-- **The end of a solve**: a loop has ended, and but for the report of that the events are those of
the loop; the result is the one at the point where it has ended. -/
theorem exists_ending (run : Run R) (indicators : Indicators R) :
    ∃ s answer, run.Ending s answer ∧
      run.loop run.options.maxiter (run.start indicators) = (s, answer) ∧
      (run.solveFrom indicators).advances = Event.advances s.events ∧
      (∀ e ∈ (run.solveFrom indicators).events, e ∈ s.events ∨ ∃ nit message,
        e = .closed nit message) ∧
      (run.solveFrom indicators).result =
        answer.bind (s.result run.problem run.options.tol) := by
  have hending := ending_loop (run.reached_start indicators) run.options.maxiter
  cases hloop : run.loop run.options.maxiter (run.start indicators) with
  | mk s answer =>
    rw [hloop] at hending
    refine ⟨s, answer, hending, rfl, ?_⟩
    cases answer with
    | error e =>
      rw [solveFrom, hloop]
      exact ⟨rfl, fun _ hmem => .inl hmem, rfl⟩
    | ok stop =>
      rw [solveFrom, hloop]
      refine ⟨?_, ?_, rfl⟩
      · rw [Outcome.advances, Event.advances_append]
        exact List.append_nil _
      · intro e hmem
        rcases List.mem_append.1 hmem with hold | hclosed
        · exact .inl hold
        · exact .inr ⟨_, _, List.mem_singleton.1 hclosed⟩

end Run

end SelfDual
