import SelfDual.Proofs.Records
/-!
**Two runs side by side.**

Two runs are compared iteration by iteration: where the first one goes on, the second one does so
too, at the image of the iteration that the first one has accepted.  What holds of one iteration
then holds of the beginnings of both runs, and if the second run also stops where the first one
does, of the runs as a whole.

Main definitions:

* `Run.Answers` — a run whose callback answers after all accepted iterations;
* `Run.Mirrors` — a run that does at the images of all points what another run does.

Main results:

* `Run.events_prefix_loop`, `Run.Continues.begins` — a loop only adds to its events, and a
  course begins with all iterations that the loop accepts;
* `Run.Continues.path` — the iterations after which a loop goes on are a path;
* `Run.Continues.map` — **iterations after which another run goes on as well**;
* `Run.Mirrors.course` — **the course of a run that mirrors another**.
-/

set_option autoImplicit false

namespace SelfDual

variable {R : Type} [Scalar R]

namespace Run

variable {run run' : Run R} {start start' : Indicators R} {as bs : List (Advance R)}
  {a : Advance R} {g : Advance R → Advance R}

/-! ### The beginning of a course -/

/-- A loop only adds to its events. -/
theorem events_prefix_loop (run : Run R) (left : Nat) (s : Progress R) :
    s.events <+: (run.loop left s).1.events := by
  induction left generalizing s with
  | zero => exact List.prefix_rfl
  | succ left ih =>
    rw [loop]
    split
    · exact List.prefix_append _ _
    · exact List.prefix_rfl
    next a step =>
      have hreport : s.events <+: ((s.accept a).report (run.shown (s.nit + 1) a)).events :=
        ⟨.iterated (s.nit + 1) a :: run.shown (s.nit + 1) a, by
          simp [Progress.report, Progress.accept]⟩
      rw [observe_accept]
      cases run.wish (s.nit + 1) a with
      | error e => exact hreport
      | ok wish =>
        dsimp only
        split
        · exact hreport
        · exact hreport
        · exact hreport.trans (ih _)

/-- The iterations after which a loop goes on are a path to where it stands. -/
theorem Continues.path (h : run.Continues start as) :
    run.kernels.Path (.blindStart run.problem.m run.problem.n) as (run.after start as).point := by
  induction h with
  | nil => exact .nil
  | snoc before step answer proceeds ih =>
    rw [point_after_snoc]
    exact .snoc ih step

/-- The iterations that a loop has accepted are a path to where it ends. -/
theorem Course.path {s : Progress R} {answer : Except Error Stop}
    (h : run.Course start as s answer) :
    run.kernels.Path (.blindStart run.problem.m run.problem.n) as s.point := by
  cases h with
  | breakdown before step => exact before.path
  | fault before step hne => exact before.path
  | decision before step answer reason =>
    rw [point_after_snoc]
    exact before.path.snoc step
  | refused before step answer =>
    rw [point_after_snoc]
    exact before.path.snoc step
  | verdict before step answer h =>
    rw [point_after_snoc]
    exact before.path.snoc step

/-- Courses of one length that stop for the same reason have begun as many iterations. -/
theorem Course.nit_eq {s s' : Progress R} {stop : Stop} (h : run.Course start as s (.ok stop))
    (h' : run'.Course start' bs s' (.ok stop)) (hlength : bs.length = as.length) :
    s'.nit = s.nit := by
  rcases h.nit_cases with ⟨hstop, hnit⟩ | ⟨hstop, hnit⟩
  · rcases h'.nit_cases with ⟨-, hnit'⟩ | ⟨hstop', -⟩
    · rw [hnit, hnit', hlength]
    · exact absurd hstop hstop'
  · rcases h'.nit_cases with ⟨hstop', -⟩ | ⟨-, hnit'⟩
    · exact absurd hstop' hstop
    · rw [hnit, hnit', hlength]

/-- A course begins with all iterations that the loop accepts. -/
theorem Continues.begins (before : run.Continues start bs)
    (step : run.kernels.advance (run.after start bs).point = .ok a) {s : Progress R}
    {answer : Except Error Stop} (h : run.Course start as s answer) : bs ++ [a] <+: as := by
  obtain ⟨left, hleft⟩ : ∃ left, run.options.maxiter - bs.length = left + 1 :=
    Nat.exists_eq_add_one.2 (Nat.sub_pos_of_lt before.length_lt)
  have hloop : run.loop (left + 1) (run.after start bs) = (s, answer) := by
    rw [← hleft, ← before.loop_eq, loop_of_course h]
  -- Whether the loop ends with this iteration or goes on, its events are there.
  have hevents : (run.after start (bs ++ [a])).events <+: s.events := by
    rw [loop_of_accept step] at hloop
    split at hloop
    · rw [← (Prod.mk.inj hloop).1]
    · split at hloop
      · rw [← (Prod.mk.inj hloop).1]
      · rw [← (Prod.mk.inj hloop).1]
      · have hbegins := run.events_prefix_loop left (run.after start (bs ++ [a]))
        rwa [hloop] at hbegins
  have hadvances := hevents.filterMap Event.advance?
  change Event.advances _ <+: Event.advances _ at hadvances
  rwa [advances_after, h.advances_eq] at hadvances

/-- An iteration that the loop accepts is one of the solve. -/
theorem Continues.getElem?_advances (before : run.Continues start bs)
    (step : run.kernels.advance (run.after start bs).point = .ok a)
    (hstart : indicators .off run.problem (.blindStart run.problem.m run.problem.n) = .ok start) :
    run.solve.advances[bs.length]? = some a := by
  obtain ⟨as, s, answer, hcourse⟩ := run.exists_course start
  obtain ⟨others, rfl⟩ := before.begins step hcourse
  rw [hcourse.advances_solve hstart]
  simp

/-! ### Going on -/

/-- **Iterations after which another run goes on as well**, each replaced by its image: if the other
run accepts the image of an iteration where the run accepts the iteration, and goes on where the run
goes on. -/
theorem Continues.map (h : run.Continues start as)
    (hstep : ∀ as a, run.Continues start as →
      run.kernels.advance (run.after start as).point = .ok a →
      run'.kernels.advance (run'.after start' (as.map g)).point = .ok (g a))
    (hgo : ∀ as a, run.Continues start as → run'.Continues start' (as.map g) →
      run.kernels.advance (run.after start as).point = .ok a →
      run.wish (as.length + 1) a = .ok false → run.Proceeds (run.after start (as ++ [a])) false →
      run'.wish (as.length + 1) (g a) = .ok false ∧
        run'.Proceeds (run'.after start' (as.map g ++ [g a])) false) :
    run'.Continues start' (as.map g) := by
  induction h with
  | nil => exact .nil
  | @snoc as a wish before step answer proceeds ih =>
    obtain rfl := proceeds.unwished
    obtain ⟨hanswer, hproceeds⟩ := hgo as a before ih step answer proceeds
    rw [List.map_append, List.map_singleton]
    refine .snoc ih (hstep as a before step) ?_ hproceeds
    rw [List.length_map]
    exact hanswer

/-! ### Answers -/

/-- The callback of a run answers after every iteration that the run accepts. -/
def Answers (run : Run R) : Prop :=
  ∀ i a, run.solve.advances[i]? = some a → ∃ wish, run.wish (i + 1) a = .ok wish

/-- A run whose callback answers stops, if its kernels are sound. -/
theorem Answers.exists_course (h : run.Answers)
    (hstart : indicators .off run.problem (.blindStart run.problem.m run.problem.n) = .ok start)
    (hk : run.kernels.Sound run.problem) : ∃ as s stop, run.Course start as s (.ok stop) := by
  obtain ⟨as, s, answer, hcourse⟩ := run.exists_course start
  rcases hcourse.ok_or_refused hk with
    ⟨stop, rfl⟩ | ⟨before, a, callback, snapshot, e, rfl, -, hcallback, hsnapshot, he⟩
  · exact ⟨as, s, stop, hcourse⟩
  · obtain ⟨wish, hwish⟩ := h before.length a (by simp [hcourse.advances_solve hstart])
    have hrefused : run.wish (before.length + 1) a = .error e := by
      rw [Run.wish, hcallback]
      dsimp only
      rw [hsnapshot, ok_bind, he]
    cases hrefused.symm.trans hwish

/-- In a sound run the callback answers. -/
theorem Sound.run_answers (h : run.Sound start) : run.Answers := by
  intro i a ha
  obtain ⟨as, s, stop, hcourse⟩ := h.exists_course
  rw [hcourse.advances_solve h.start] at ha
  rw [Run.wish]
  cases hcallback : run.callback with
  | none => exact ⟨false, rfl⟩
  | some callback =>
    have hfits := hcourse.fits h.kernels a (List.mem_of_getElem? ha)
    obtain ⟨snapshot, hsnapshot⟩ := exists_snapshot hfits (i + 1)
    obtain ⟨wish, hwish⟩ := h.answers callback hcallback snapshot
    refine ⟨wish, ?_⟩
    dsimp only
    rw [hsnapshot, ok_bind, hwish]

/-! ### Stopping -/

/-- **A run mirrors another one** through a map of their iterations: wherever the other one goes on,
it accepts the image of what the other one accepts and breaks down where the other one breaks down,
and the callbacks and the reasons to stop are the same. -/
structure Mirrors (run run' : Run R) (start start' : Indicators R)
    (g : Advance R → Advance R) : Prop where
  step : ∀ {as a}, run.Continues start as →
    run.kernels.advance (run.after start as).point = .ok a →
    run'.kernels.advance (run'.after start' (as.map g)).point = .ok (g a)
  breakdown : ∀ {as e}, run.Continues start as →
    run.kernels.advance (run.after start as).point = .error e →
    (∃ b, e = .breakdown b) ∧
      ∃ b, run'.kernels.advance (run'.after start' (as.map g)).point = .error (.breakdown b)
  wish : ∀ {as a}, run.Continues start as →
    run.kernels.advance (run.after start as).point = .ok a →
    run'.wish (as.length + 1) (g a) = run.wish (as.length + 1) a
  verdict : ∀ {as a}, run.Continues start as →
    run.kernels.advance (run.after start as).point = .ok a → ∀ wish,
    run'.verdict (run'.after start' (as.map g ++ [g a])) wish =
      run.verdict (run.after start (as ++ [a])) wish

namespace Mirrors

variable (h : run.Mirrors run' start start' g)

include h

/-- A run that mirrors another goes on where the other one does. -/
theorem continues (hcontinues : run.Continues start as) : run'.Continues start' (as.map g) := by
  refine hcontinues.map (fun as a before step => h.step before step) ?_
  intro as a before _ step answer proceeds
  refine ⟨(h.wish before step).trans answer, ?_⟩
  rw [← verdict_eq_none_iff] at proceeds ⊢
  rw [h.verdict before step, proceeds]

/-- The callbacks answer the same, after as many iterations. -/
theorem wish_map (before : run.Continues start as)
    (step : run.kernels.advance (run.after start as).point = .ok a) :
    run'.wish ((as.map g).length + 1) (g a) = run.wish (as.length + 1) a := by
  rw [List.length_map, h.wish before step]

/-- **The course of a run that mirrors another** has the images of the iterations of the other one,
and ends with the same answer. -/
theorem course {s : Progress R} {answer : Except Error Stop}
    (hcourse : run.Course start as s answer) : ∃ s', run'.Course start' (as.map g) s' answer := by
  cases hcourse with
  | breakdown before step =>
    obtain ⟨-, b', hb'⟩ := h.breakdown before step
    exact ⟨_, .breakdown (h.continues before) hb'⟩
  | fault before step hne =>
    obtain ⟨⟨b, hb⟩, -⟩ := h.breakdown before step
    exact absurd hb (hne b)
  | decision before step answer reason =>
    rw [List.map_append, List.map_singleton]
    refine ⟨_, .decision (h.continues before) (h.step before step)
      ((h.wish_map before step).trans answer) ?_⟩
    rw [← verdict_eq_iff] at reason ⊢
    rw [h.verdict before step, reason]
  | refused before step answer =>
    rw [List.map_append, List.map_singleton]
    exact ⟨_, .refused (h.continues before) (h.step before step)
      ((h.wish_map before step).trans answer)⟩
  | verdict before step answer hverdict =>
    rw [List.map_append, List.map_singleton]
    refine ⟨_, .verdict (h.continues before) (h.step before step)
      ((h.wish_map before step).trans answer) ?_⟩
    rw [h.verdict before step, hverdict]

end Mirrors

end Run

end SelfDual
