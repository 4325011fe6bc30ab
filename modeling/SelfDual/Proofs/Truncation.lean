import SelfDual.Proofs.Records
/-!
**Solves that are cut short.**

An iteration does not know the limit on their number, nor whether there is a callback.  So a run
with a lower limit accepts the same iterations, as far as they go, and where the limit is reached it
stops for it, unless there is a solution or a certificate.  A callback that wishes to stop there
comes second to both, as the limit does: but for the wording of its end the run is the same.

Main definitions:

* `Run.withLimit`, `Run.withCallback` — a run with another limit, and with another callback;
* `Run.FirstWishesAt` — a callback that first wishes to stop after a certain iteration;
* `Stop.atLimit` — what a reason to stop turns into if no iteration is left.

Main results:

* `Run.Continues.take`, `Run.Continues.wish_eq` — the beginning of a run that goes on;
* `Run.Continues.vary` — **iterations after which another run goes on as well**;
* `Run.Reason.atLimit`, `Run.Reason.below` — what becomes of a reason to stop in the other run;
* `Run.Course.exists_withLimit` — the course of a run with a lower limit;
* `Run.Course.exists_withoutCallback` — the course of a run that has a lower limit in place of a
  callback;
* `Run.limit_truncates` — **a lower limit cuts the history**, and a callback does the same.
-/

set_option autoImplicit false

namespace SelfDual

variable {R : Type} [Scalar R]

/-- What a reason to stop turns into if no iteration is left: the wish of a callback and the time
limit come second to the limit on the iterations. -/
def Stop.atLimit (stop : Stop) : Stop :=
  if stop.status = .iterationLimit then .iterationLimit else stop

namespace Run

/-! ### Other limits and callbacks -/

/-- The run with another limit on the iterations. -/
def withLimit (run : Run R) (k : Nat) (hk : 0 < k) : Run R :=
  { run with options := { run.options with maxiter := k, maxiter_pos := hk } }

/-- The run with another callback, or with none. -/
def withCallback (run : Run R) (callback : Option (Callback R)) : Run R :=
  { run with callback := callback }

/-- **A callback first wishes to stop after iteration `k`**, if it is called then. -/
def FirstWishesAt (run : Run R) (callback : Callback R) (k : Nat) : Prop :=
  ∀ snapshot, .observed snapshot ∈ (run.withCallback (some callback)).solve.events →
    (snapshot.nit < k → callback snapshot = .ok false) ∧
      (snapshot.nit = k → callback snapshot = .ok true)

variable {run : Run R} {start : Indicators R} {as : List (Advance R)} {a : Advance R}

/-! ### The beginning of a run -/

/-- The last of some iterations after each of which a loop goes on. -/
theorem Continues.of_snoc (h : run.Continues start (as ++ [a])) :
    run.Continues start as ∧ run.kernels.advance (run.after start as).point = .ok a ∧
      run.wish (as.length + 1) a = .ok false ∧
      run.Proceeds (run.after start (as ++ [a])) false := by
  generalize hbs : as ++ [a] = bs at h
  cases h with
  | nil => simp at hbs
  | @snoc before b wish hbefore step answer proceeds =>
    obtain ⟨rfl, hlast⟩ := List.append_inj' hbs rfl
    obtain rfl := List.singleton_inj.1 hlast
    obtain rfl := proceeds.unwished
    exact ⟨hbefore, step, answer, proceeds⟩

/-- A loop goes on after the first ones of these iterations. -/
theorem Continues.take (h : run.Continues start as) (k : Nat) :
    run.Continues start (as.take k) := by
  induction h with
  | nil =>
    rw [List.take_nil]
    exact .nil
  | @snoc as a wish before step answer proceeds ih =>
    rcases Nat.lt_or_ge as.length k with hlt | hle
    · rw [List.take_of_length_le (by simpa using hlt)]
      exact .snoc before step answer proceeds
    · rwa [List.take_append_of_le_length hle]

/-- The callback has not wished to stop after any of these iterations. -/
theorem Continues.wish_eq (h : run.Continues start as) {i : Nat} (ha : as[i]? = some a) :
    run.wish (i + 1) a = .ok false := by
  obtain ⟨hlt, -⟩ := List.getElem?_eq_some_iff.1 ha
  have hsnoc : as.take (i + 1) = as.take i ++ [a] := by
    rw [List.take_add_one, ha]
    rfl
  have htake := h.take (i + 1)
  rw [hsnoc] at htake
  obtain ⟨-, -, hwish, -⟩ := htake.of_snoc
  rwa [List.length_take, min_eq_left hlt.le] at hwish

/-- Before its last iteration a course goes on. -/
theorem Course.continues_take {s : Progress R} {answer : Except Error Stop}
    (h : run.Course start as s answer) {k : Nat} (hk : k < as.length) :
    run.Continues start (as.take k) := by
  have hsnoc : ∀ {as : List (Advance R)} {a : Advance R}, run.Continues start as →
      k < (as ++ [a]).length → run.Continues start ((as ++ [a]).take k) := by
    intro as a before hlt
    rw [List.length_append, List.length_singleton] at hlt
    rw [List.take_append_of_le_length (Nat.le_of_lt_succ hlt)]
    exact before.take k
  cases h with
  | breakdown before step => exact before.take k
  | decision before step answer reason => exact hsnoc before hk
  | fault before step hne => exact before.take k
  | refused before step answer => exact hsnoc before hk
  | verdict before step answer h => exact hsnoc before hk

/-! ### Runs that differ in the limit and in the callback -/

section Variants

variable {k : Nat} {hk : 0 < k} {callback : Option (Callback R)}

/-- **Iterations after each of which another run goes on as well**, if its callback does not wish
to stop and if its limit is not reached. -/
theorem Continues.vary (h : run.Continues start as) (hlt : as.length < k)
    (hwish : ∀ i a, as[i]? = some a → (run.withCallback callback).wish (i + 1) a = .ok false) :
    ((run.withLimit k hk).withCallback callback).Continues start as := by
  induction h with
  | nil => exact .nil
  | @snoc as a wish before step answer proceeds ih =>
    have hbefore : as.length < k := by
      rw [List.length_append] at hlt
      omega
    have hearlier : ∀ i a', as[i]? = some a' →
        (run.withCallback callback).wish (i + 1) a' = .ok false := fun i a' ha' =>
      hwish i a' ((List.getElem?_append_left (List.getElem?_eq_some_iff.1 ha').1).trans ha')
    refine .snoc (ih hbefore hearlier) step (hwish as.length a (by simp)) ?_
    exact ⟨⟨proceeds.undecided.unsolved, proceeds.undecided.uncertified⟩, hlt, rfl,
      proceeds.inTime⟩

/-- Where no iteration is left, a run that goes on elsewhere stops for the limit. -/
theorem Proceeds.reason_iterationLimit {wish wish' : Bool}
    (h : run.Proceeds (run.after start as) wish) (hle : k ≤ as.length) :
    ((run.withLimit k hk).withCallback callback).Reason
      (((run.withLimit k hk).withCallback callback).after start as) wish' .iterationLimit :=
  .iterationLimit ⟨h.undecided.unsolved, h.undecided.uncertified⟩ hle

/-- Where no iteration is left, a reason to stop turns into another, or stays. -/
theorem Reason.atLimit {wish wish' : Bool} {stop : Stop}
    (h : run.Reason (run.after start as) wish stop) (hle : k ≤ as.length) :
    ((run.withLimit k hk).withCallback callback).Reason
      (((run.withLimit k hk).withCallback callback).after start as) wish' stop.atLimit := by
  cases h with
  | solved h => exact .solved h
  | infeasible h hlt => exact .infeasible ⟨h.unsolved, h.certificate, h.dot⟩ hlt
  | unbounded h hlt => exact .unbounded ⟨h.unsolved, h.certificate, h.dot⟩ hlt
  | iterationLimit h hlimit => exact .iterationLimit ⟨h.unsolved, h.uncertified⟩ hle
  | callback h hbelow hwish => exact .iterationLimit ⟨h.unsolved, h.uncertified⟩ hle
  | timeLimit h hbelow hwish htime => exact .iterationLimit ⟨h.unsolved, h.uncertified⟩ hle

/-- Where iterations are left in both runs, a reason to stop stays. -/
theorem Reason.below {wish : Bool} {stop : Stop} (h : run.Reason (run.after start as) wish stop)
    (hstop : stop ≠ .iterationLimit) (hlt : as.length < k) :
    ((run.withLimit k hk).withCallback callback).Reason
      (((run.withLimit k hk).withCallback callback).after start as) wish stop := by
  cases h with
  | solved h => exact .solved h
  | infeasible h hlt => exact .infeasible ⟨h.unsolved, h.certificate, h.dot⟩ hlt
  | unbounded h hlt => exact .unbounded ⟨h.unsolved, h.certificate, h.dot⟩ hlt
  | iterationLimit h hlimit => exact absurd rfl hstop
  | callback h hbelow hwish => exact .callback ⟨h.unsolved, h.uncertified⟩ hlt hwish
  | timeLimit h hbelow hwish htime => exact .timeLimit ⟨h.unsolved, h.uncertified⟩ hlt hwish htime

/-- Two courses with the same iterations and the same number of them have the same result but for
the reason to stop. -/
theorem Course.result_eq {s s' : Progress R} {stop stop' : Stop} {r : Result R}
    (h : run.Course start as s (.ok stop))
    (h' : ((run.withLimit k hk).withCallback callback).Course start as s' (.ok stop'))
    (hstop : stop = .breakdown ↔ stop' = .breakdown)
    (hr : s.result run.problem run.options.tol stop = .ok r) :
    s'.result run.problem run.options.tol stop' = .ok { r with stop := stop' } := by
  obtain ⟨hpoint, hindicators, hhistory⟩ := h.fields_eq
  obtain ⟨hpoint', hindicators', hhistory'⟩ := h'.fields_eq
  have hnit : s'.nit = r.nit := by
    rw [(Progress.fields_of_result hr).2.1]
    rcases h.nit_cases with ⟨hbreak, hnit⟩ | ⟨hbreak, hnit⟩ <;>
      rcases h'.nit_cases with ⟨hbreak', hnit'⟩ | ⟨hbreak', hnit'⟩
    · rw [hnit, hnit']
    · exact absurd (hstop.1 hbreak) hbreak'
    · exact absurd (hstop.2 hbreak') hbreak
    · rw [hnit, hnit']
  rw [Progress.result_congr hr (hpoint'.trans hpoint.symm) (hindicators'.trans hindicators.symm)
    (hhistory'.trans hhistory.symm) stop', hnit]

end Variants

/-! ### A lower limit -/

/-- Where a lower limit is reached before the run has ended, it stops for the limit. -/
theorem Continues.course_withLimit {k : Nat} (h : run.Continues start as) (hk : 0 < k)
    (hlength : as.length = k) :
    (run.withLimit k hk).Course start as ((run.withLimit k hk).after start as)
      (.ok .iterationLimit) := by
  change ((run.withLimit k hk).withCallback run.callback).Course start as _ _
  rcases as.eq_nil_or_concat' with rfl | ⟨before, a, rfl⟩
  · exact absurd hlength hk.ne
  · obtain ⟨hbefore, step, answer, proceeds⟩ := h.of_snoc
    have hlt : before.length < k := by
      rw [← hlength, List.length_append]
      exact Nat.lt_succ_self _
    exact .decision (hbefore.vary hlt fun _ _ => hbefore.wish_eq) step answer
      (proceeds.reason_iterationLimit hlength.ge)

/-- **The course of a run with a lower limit** has the first iterations of the course without it.
It stops for the limit, unless it has come as far as the other one. -/
theorem Course.exists_withLimit {s : Progress R} {stop : Stop} {k : Nat}
    (h : run.Course start as s (.ok stop)) (hk : 0 < k) (hle : k ≤ as.length) :
    ∃ stop', (run.withLimit k hk).Course start (as.take k)
        ((run.withLimit k hk).after start (as.take k)) (.ok stop') ∧
      (k < as.length ∨ stop = .breakdown → stop' = .iterationLimit) ∧
      (k = as.length → stop ≠ .breakdown → stop' = stop.atLimit) := by
  rcases hle.lt_or_eq with hlt | heq
  · have hlength : (as.take k).length = k := List.length_take_of_le hle
    exact ⟨_, (h.continues_take hlt).course_withLimit hk hlength, fun _ => rfl,
      fun heq => absurd heq hlt.ne⟩
  · rw [List.take_of_length_le heq.ge]
    cases h with
    | breakdown before step =>
      exact ⟨_, before.course_withLimit hk heq.symm, fun _ => rfl,
        fun _ hbreak => absurd rfl hbreak⟩
    | @decision before a wish stop hbefore step answer reason =>
      have hlt : before.length < k := by
        rw [heq, List.length_append]
        exact Nat.lt_succ_self _
      refine ⟨stop.atLimit, ?_, ?_, fun _ _ => rfl⟩
      · change ((run.withLimit k hk).withCallback run.callback).Course start _ _ _
        exact .decision (hbefore.vary hlt fun _ _ => hbefore.wish_eq) step answer
          (reason.atLimit heq.le)
      · rintro (hlt | rfl)
        · exact absurd heq hlt.ne
        · cases reason

/-! ### A callback that wishes to stop -/

namespace FirstWishesAt

variable {callback : Callback R} {k : Nat} {s : Progress R} {answer : Except Error Stop}
  (hwish : run.FirstWishesAt callback k) (hsound : run.kernels.Sound run.problem)
  (hstart : indicators .off run.problem (.blindStart run.problem.m run.problem.n) = .ok start)
  (h : (run.withCallback (some callback)).Course start as s answer)

include hwish hsound hstart h

/-- What the callback answers after an accepted iteration. -/
theorem wish_eq {i : Nat} (ha : as[i]? = some a) :
    (i + 1 < k → (run.withCallback (some callback)).wish (i + 1) a = .ok false) ∧
      (i + 1 = k → (run.withCallback (some callback)).wish (i + 1) a = .ok true) := by
  have hkernels : (run.withCallback (some callback)).kernels.Sound run.problem := hsound
  have hfits : a.point.Fits run.problem := h.fits hkernels a (List.mem_of_getElem? ha)
  obtain ⟨snapshot, hsnapshot⟩ := exists_snapshot hfits (i + 1)
  have hanswer : (run.withCallback (some callback)).wish (i + 1) a = callback snapshot := by
    change a.snapshot (i + 1) >>= callback = _
    rw [hsnapshot, ok_bind]
  rw [hanswer, ← nit_of_snapshot hsnapshot]
  refine hwish snapshot (h.mem_events hstart ?_)
  exact observed_mem_after_iff.2 ⟨rfl, i, a, ha, hsnapshot⟩

/-- A loop does not go on after the iteration after which the callback wishes to stop. -/
theorem length_lt (hk : 0 < k) {before : List (Advance R)}
    (hbefore : (run.withCallback (some callback)).Continues start before)
    (hbegins : before <+: as) : before.length < k := by
  by_contra hle
  have hlast : k - 1 < before.length := by omega
  have hnumber : k - 1 + 1 = k := Nat.sub_add_cancel hk
  have hfalse := hbefore.wish_eq (List.getElem?_eq_getElem hlast)
  have ha : as[k - 1]? = some before[k - 1] := List.prefix_iff_getElem?.1 hbegins (k - 1) hlast
  have htrue := (hwish.wish_eq hsound hstart h ha).2 hnumber
  cases hfalse.symm.trans htrue

/-- After the last iteration the callback wishes to stop exactly if it is the one after which it
first does. -/
theorem wish_last (hk : 0 < k) {before : List (Advance R)}
    (hbefore : (run.withCallback (some callback)).Continues start before)
    (hlast : as = before ++ [a]) :
    before.length + 1 < k ∧
        (run.withCallback (some callback)).wish (before.length + 1) a = .ok false ∨
      before.length + 1 = k ∧
        (run.withCallback (some callback)).wish (before.length + 1) a = .ok true := by
  subst hlast
  have hlength := hwish.length_lt hsound hstart h hk hbefore (List.prefix_append _ _)
  obtain ⟨hfalse, htrue⟩ := hwish.wish_eq hsound hstart h (i := before.length) (a := a) (by simp)
  rcases Nat.lt_or_eq_of_le (Nat.succ_le_of_lt hlength) with hearlier | hnow
  · exact .inl ⟨hearlier, hfalse hearlier⟩
  · exact .inr ⟨hnow, htrue hnow⟩

end FirstWishesAt

/-- Below the limit no run stops for it. -/
theorem Reason.ne_iterationLimit {s : Progress R} {wish : Bool} {stop : Stop}
    (h : run.Reason s wish stop) (hlt : s.nit < run.options.maxiter) : stop ≠ .iterationLimit := by
  rintro rfl
  cases h with
  | iterationLimit h hlimit => exact Nat.not_lt_of_le hlimit hlt

/-- Where the limit takes the place of a wish to stop, the wish is all that turns into it. -/
theorem Reason.atLimit_of_wished {s : Progress R} {stop : Stop} (h : run.Reason s true stop)
    (hlt : s.nit < run.options.maxiter) :
    (stop.atLimit = stop ∧ stop ≠ .iterationLimit) ∨
      (stop.atLimit = .iterationLimit ∧ stop = .callback) := by
  have hlimit := h.ne_iterationLimit hlt
  cases h with
  | callback h hbelow hwish => exact .inr ⟨rfl, rfl⟩
  | timeLimit h hbelow hwish htime => cases hwish
  | iterationLimit h hlimit' => exact absurd rfl hlimit
  | _ => exact .inl ⟨rfl, hlimit⟩

/-- **The course of a run with a lower limit in place of a callback** has the same iterations, if
the callback first wishes to stop after the last one of them.  It stops for the same reason, unless
the other run stops for the wish. -/
theorem Course.exists_withoutCallback {callback : Callback R} {k : Nat} {s : Progress R}
    {answer : Except Error Stop} (h : (run.withCallback (some callback)).Course start as s answer)
    (hsound : run.kernels.Sound run.problem)
    (hstart : indicators .off run.problem (.blindStart run.problem.m run.problem.n) = .ok start)
    (hwish : run.FirstWishesAt callback k) (hk : 0 < k) (hlt : k < run.options.maxiter) :
    ∃ stop s' stop', answer = .ok stop ∧
      ((run.withLimit k hk).withCallback none).Course start as s' (.ok stop') ∧
      ((stop' = stop ∧ stop ≠ .iterationLimit) ∨
        (stop' = .iterationLimit ∧ stop = .callback)) := by
  have hkernels : (run.withCallback (some callback)).kernels.Sound run.problem := hsound
  have hcourse := h
  have hcut : ∀ {before}, (run.withCallback (some callback)).Continues start before →
      before <+: as → ((run.withLimit k hk).withCallback none).Continues start before :=
    fun hbefore hbegins =>
      hbefore.vary (hwish.length_lt hsound hstart hcourse hk hbefore hbegins) fun _ _ _ => rfl
  rcases h.ok_or_refused hkernels with
    ⟨stop, rfl⟩ | ⟨before, a, callback', snapshot, e, rfl, hbefore, hcallback, hsnapshot, he⟩
  · cases h with
    | breakdown before step =>
      exact ⟨_, _, _, rfl, .breakdown (hcut before (List.prefix_refl _)) step,
        .inl ⟨rfl, by decide⟩⟩
    | @decision before a wish stop hbefore step answer reason =>
      have hbefore' := hcut hbefore (List.prefix_append _ _)
      have hnit : (before ++ [a]).length = before.length + 1 := List.length_append
      rcases hwish.wish_last hsound hstart hcourse hk hbefore rfl with
        ⟨hearlier, hfalse⟩ | ⟨hnow, htrue⟩
      · obtain rfl := Except.ok.inj (answer.symm.trans hfalse)
        have hlimit := reason.ne_iterationLimit (hnit.trans_lt (hearlier.trans hlt))
        exact ⟨_, _, _, rfl, .decision hbefore' step rfl
          (reason.below hlimit (hnit.trans_lt hearlier)), .inl ⟨rfl, hlimit⟩⟩
      · obtain rfl := Except.ok.inj (answer.symm.trans htrue)
        exact ⟨_, _, _, rfl, .decision hbefore' step rfl (reason.atLimit (hnit.trans hnow).ge),
          reason.atLimit_of_wished ((hnit.trans hnow).trans_lt hlt)⟩
  · -- The callback has answered wherever it has been called.
    obtain rfl := Option.some.inj hcallback
    have hfails : (run.withCallback (some callback)).wish (before.length + 1) a = .error e := by
      change a.snapshot (before.length + 1) >>= callback = _
      rw [hsnapshot, ok_bind, he]
    rcases hwish.wish_last hsound hstart hcourse hk hbefore rfl with ⟨-, hfalse⟩ | ⟨-, htrue⟩
    · cases hfalse.symm.trans hfails
    · cases htrue.symm.trans hfails

/-! ### Results -/

/-- A sound run is sound with another limit. -/
theorem Sound.withLimit (h : run.Sound start) {k : Nat} (hk : 0 < k) :
    (run.withLimit k hk).Sound start :=
  ⟨h.start, h.kernels, h.answers⟩

/-- **The result with a lower limit**, which cuts the course of a run with a result `r`. -/
theorem Course.exists_result_withLimit {s : Progress R} {r : Result R} {k : Nat}
    (hcourse : run.Course start as s (.ok r.stop)) (h : run.Sound start)
    (hr : s.result run.problem run.options.tol r.stop = .ok r) (hk : 0 < k) (hle : k ≤ as.length) :
    ∃ r', (run.withLimit k hk).solve.result = .ok r' ∧ r'.history = r.history.take k ∧
      (k < as.length ∨ r.stop = .breakdown → r'.stop = .iterationLimit ∧ r'.nit = k) ∧
      (k = as.length → r.stop ≠ .breakdown → r' = { r with stop := r.stop.atLimit }) := by
  obtain ⟨stop', hcourse', hlimit, hsame⟩ := hcourse.exists_withLimit hk hle
  obtain ⟨r', hr'⟩ := hcourse'.exists_result (h.withLimit hk).kernels
  obtain ⟨rfl, hnit', -, hhistory'⟩ := Progress.fields_of_result hr'
  refine ⟨r', (hcourse'.result_solve h.start).trans hr', ?_, fun hcut => ⟨hlimit hcut, ?_⟩,
    fun heq hbreak => ?_⟩
  · rw [hhistory', hcourse'.fields_eq.2.2, (Progress.fields_of_result hr).2.2.2,
      hcourse.fields_eq.2.2, List.map_take]
  · rw [hnit']
    exact List.length_take_of_le hle
  · have hstop := hsame heq hbreak
    rw [List.take_of_length_le heq.ge] at hcourse' hr'
    have hbreak' : r.stop = .breakdown ↔ r'.stop = .breakdown := by
      rw [hstop, Stop.atLimit]
      cases r.stop <;> decide
    change ((run.withLimit k hk).withCallback run.callback).Course start as _ _ at hcourse'
    rw [← hstop]
    exact Except.ok.inj (hr'.symm.trans (hcourse.result_eq hcourse' hbreak' hr))

/-- **The result with a lower limit in place of a callback.** -/
theorem Sound.exists_result_withCallback (h : run.Sound start) (hnone : run.callback = none)
    {callback : Callback R} {k : Nat} (hk : 0 < k) (hlt : k < run.options.maxiter)
    (hwish : run.FirstWishesAt callback k) :
    ∃ r stop, (run.withCallback (some callback)).solve.result = .ok r ∧
      (run.withLimit k hk).solve.result = .ok { r with stop := stop } ∧
      ((stop = r.stop ∧ r.stop ≠ .iterationLimit) ∨
        (stop = .iterationLimit ∧ r.stop = .callback)) := by
  obtain ⟨as, s, answer, hcourse⟩ := (run.withCallback (some callback)).exists_course start
  obtain ⟨stop, s', stop', rfl, hcourse', hreasons⟩ :=
    hcourse.exists_withoutCallback h.kernels h.start hwish hk hlt
  have hkernels : (run.withCallback (some callback)).kernels.Sound run.problem := h.kernels
  obtain ⟨r, hr⟩ := hcourse.exists_result hkernels
  obtain rfl := (Progress.fields_of_result hr).1
  refine ⟨r, stop', (hcourse.result_solve h.start).trans hr, ?_, hreasons⟩
  have hsame : (run.withLimit k hk).withCallback none = run.withLimit k hk := by
    rw [← hnone]
    rfl
  have hbreak : r.stop = .breakdown ↔ stop' = .breakdown := by
    rcases hreasons with ⟨rfl, -⟩ | ⟨rfl, hwished⟩
    · rfl
    · rw [hwished]
      decide
  rw [← hsame, hcourse'.result_solve h.start]
  exact hcourse.result_eq hcourse' hbreak hr

/-! ### Both ways to cut a run short -/

/-- **A lower limit cuts the history**, and a callback does the same.

With a limit of `k` instead, where `k` is not more than the iterations that a run has accepted, the
history is the first `k` entries.  If there are more, or if the run breaks down in the next
iteration, the shorter run stops for its limit after `k` iterations; if the run has been decided at
the last of them, the result is the same.

A callback that first wishes to stop after iteration `k`, below the limit, leads to the same result
as a limit of `k` without a callback, but for the wording where that limit is what the shorter run
stops for.  All of these runs have the same clock and the same time limit, if there is one. -/
theorem limit_truncates (run : Run R) {start : Indicators R} (h : run.Sound start)
    (hnone : run.callback = none) :
    ∃ r, run.solve.result = .ok r ∧
      (∀ k (hk : 0 < k), k ≤ r.history.length →
        ∃ r', (run.withLimit k hk).solve.result = .ok r' ∧ r'.history = r.history.take k ∧
          (k < r.history.length ∨ k = r.history.length ∧ r.status = .numericalError →
            r'.stop = .iterationLimit ∧ r'.nit = k) ∧
          (k = r.history.length →
            r.status = .optimal ∨ r.status = .infeasible ∨ r.status = .unbounded → r' = r)) ∧
      (∀ k (hk : 0 < k) callback, k < run.options.maxiter → run.FirstWishesAt callback k →
        ∃ r' stop, (run.withCallback (some callback)).solve.result = .ok r' ∧
          (run.withLimit k hk).solve.result = .ok { r' with stop := stop } ∧
          stop.status = r'.status ∧ (stop.message ≠ r'.message ↔ stop = .iterationLimit)) := by
  obtain ⟨as, s, stop, hcourse⟩ := h.exists_course
  obtain ⟨r, hr⟩ := hcourse.exists_result h.kernels
  obtain ⟨rfl, -, -, hhistory⟩ := Progress.fields_of_result hr
  have hlength : r.history.length = as.length := by
    rw [hhistory, hcourse.fields_eq.2.2, List.length_map]
  refine ⟨r, (hcourse.result_solve h.start).trans hr, fun k hk hle => ?_,
    fun k hk callback hlt hwish => ?_⟩
  · rw [hlength] at hle ⊢
    obtain ⟨r', hr', htake, hlimit, hsame⟩ := hcourse.exists_result_withLimit h hr hk hle
    refine ⟨r', hr', htake, fun hcut => ?_, fun heq hdecided => ?_⟩
    · exact hlimit (hcut.imp_right fun hbroke => Stop.eq_breakdown_of_status hbroke.2)
    · have hstop : r.stop ≠ .breakdown ∧ r.stop.atLimit = r.stop := by
        rw [Result.status] at hdecided
        revert hdecided
        cases r.stop <;> decide
      rw [hsame heq hstop.1, hstop.2]
  · obtain ⟨r', stop, hr', hresult, hreasons⟩ := h.exists_result_withCallback hnone hk hlt hwish
    refine ⟨r', stop, hr', hresult, ?_⟩
    rw [Result.status, Result.message]
    rcases hreasons with ⟨rfl, hlimit⟩ | ⟨rfl, hwished⟩
    · exact ⟨rfl, iff_of_false (fun hmessage => hmessage rfl) hlimit⟩
    · rw [hwished]
      decide

end Run

/-- A run that breaks down in the third iteration, its history cut after the first one by a limit
and by a callback. -/
theorem limit_truncates_counting :
    ∃ r r₁ r', (Run.counting 2).solve.result = .ok r ∧ r.history.length = 2 ∧
      ((Run.counting 2).withLimit 1 Nat.one_pos).solve.result = .ok r₁ ∧
      r₁.history = r.history.take 1 ∧ r₁.stop = .iterationLimit ∧
      ((Run.counting 2).withCallback (some fun snapshot => .ok (snapshot.nit == 1))).solve.result =
        .ok r' ∧
      r₁ = { r' with stop := .iterationLimit } ∧ r₁.message ≠ r'.message := by
  obtain ⟨r₂, hr₂, -, -, hlength⟩ := Run.exists_result_counting (show 2 < 1000 by decide)
  obtain ⟨r, hr, hlimit, hcallback⟩ := Run.limit_truncates _ (Run.sound_counting 2) rfl
  obtain rfl := Except.ok.inj (hr₂.symm.trans hr)
  obtain ⟨r₁, hr₁, htake, hstop, -⟩ := hlimit 1 Nat.one_pos (by omega)
  obtain ⟨hlimited, -⟩ := hstop (.inl (by omega))
  obtain ⟨r', stop, hr', hsame, -, hmessage⟩ :=
    hcallback 1 Nat.one_pos (fun snapshot => .ok (snapshot.nit == 1)) (by decide)
      fun snapshot _ => ⟨fun hlt => by simp [hlt.ne], fun heq => by simp [heq]⟩
  obtain rfl := Except.ok.inj (hr₁.symm.trans hsame)
  obtain rfl : stop = .iterationLimit := hlimited
  exact ⟨_, _, r', hr, hlength, hr₁, htake, rfl, hr', rfl, hmessage.2 rfl⟩

end SelfDual
