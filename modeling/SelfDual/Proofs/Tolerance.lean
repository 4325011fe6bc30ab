import SelfDual.Proofs.Simulation
/-!
**Solves with a larger tolerance.**

The iteration does not know the tolerance; only the tests of the indicators do.  What passes them
passes them with a larger tolerance as well, the test for a certificate because `kappa` is not
negative at the points of a solve.  So a solve with a larger tolerance accepts the same iterations
and stops no later.

Main definitions:

* `Options.withTolerance` — the options with another tolerance;
* `Run.AnswersAlike` — two runs whose callbacks answer the same after the same iterations.

Main results:

* `Indicators.isSolved_mono`, `Indicators.isCertificate_mono` — the tests of the indicators with a
  larger tolerance;
* `Run.continues_of_withTolerance` — where a run with a larger tolerance goes on, the run goes on;
* `larger_tolerance_stops_earlier` — **a solve with a larger tolerance stops no later**.
-/

set_option autoImplicit false

namespace SelfDual

/-- The options with another tolerance. -/
def Options.withTolerance {R : Type} [Scalar R] (o : Options R) (tol : R) (htol : 0 < tol) :
    Options R :=
  { o with tol := tol, tol_pos := htol }

/-- **Two runs answer alike**: the callbacks of both answer after every iteration that their run
accepts, and after an iteration of one number that both accept the answers are the same. -/
structure Run.AnswersAlike {R : Type} [Scalar R] (run run' : Run R) : Prop where
  left : run.Answers
  right : run'.Answers
  same : ∀ i a, run.solve.advances[i]? = some a → run'.solve.advances[i]? = some a →
    run.wish (i + 1) a = run'.wish (i + 1) a

variable {K : Type} [ExactField K]

/-! ### Tests of the indicators -/

namespace Indicators

variable {ind : Indicators K} {tau kappa tol tol' : K}

/-- What is solved is solved with a larger tolerance. -/
theorem isSolved_mono (hle : tol ≤ tol') (h : ind.isSolved tol = true) :
    ind.isSolved tol' = true := by
  rw [isSolved_iff] at h ⊢
  obtain ⟨hrhoP, hrhoD, hrhoA⟩ := h
  exact ⟨hrhoP.trans hle, hrhoD.trans hle, hrhoA.trans hle⟩

/-- What certifies that there is no solution does so with a larger tolerance, unless `kappa` is
negative. -/
theorem isCertificate_mono (hkappa : 0 ≤ kappa) (hle : tol ≤ tol')
    (h : ind.isCertificate tau kappa tol = true) : ind.isCertificate tau kappa tol' = true := by
  rw [isCertificate, Bool.or_eq_true] at h ⊢
  rcases h with hresiduals | hcomplementarity
  · left
    rw [residualsVanish_iff, Scalar.greatest_exact] at hresiduals ⊢
    obtain ⟨hrhoP, hrhoD, hrhoG, htau⟩ := hresiduals
    have hfactor : 0 ≤ max 1 kappa := hkappa.trans (le_max_right 1 kappa)
    exact ⟨hrhoP.trans_le hle, hrhoD.trans_le hle, hrhoG.trans_le hle,
      htau.trans_le (mul_le_mul_of_nonneg_right hle hfactor)⟩
  · right
    rw [complementarityVanishes_iff, Scalar.least_exact] at hcomplementarity ⊢
    obtain ⟨hrhoMu, htau⟩ := hcomplementarity
    have hfactor : 0 ≤ min 1 kappa := le_min zero_le_one hkappa
    exact ⟨hrhoMu.trans_le hle, htau.trans_le (mul_le_mul_of_nonneg_right hle hfactor)⟩

end Indicators

/-! ### Going on -/

section Tolerances

variable {p : Problem K} {o : Options K} {tol : K} {htol : 0 < tol}
  {callback callback' : Option (Callback K)} {clock clock' : ℕ → K} {start : Indicators K}
  {as : List (Advance K)}

namespace Run

/-- What does not decide with a larger tolerance does not decide. -/
theorem undecided_of_withTolerance (hle : o.tol ≤ tol) {s s' : Progress K}
    (h : (standard p (o.withTolerance tol htol) callback' clock').Undecided s')
    (hpoint : s'.point = s.point) (hindicators : s'.indicators = s.indicators)
    (hkappa : 0 ≤ s.point.kappa) :
    (standard p o callback clock).Undecided s where
  unsolved := by
    refine Bool.eq_false_of_not_eq_true fun hsolved => ?_
    have hlarger := Indicators.isSolved_mono hle hsolved
    rw [← hindicators] at hlarger
    exact Bool.false_ne_true (h.unsolved.symm.trans hlarger)
  uncertified := by
    refine Bool.eq_false_of_not_eq_true fun hcertificate => ?_
    have hlarger := Indicators.isCertificate_mono hkappa hle hcertificate
    rw [← hindicators, ← hpoint] at hlarger
    exact Bool.false_ne_true (h.uncertified.symm.trans hlarger)

/-- **Where the run with a larger tolerance goes on, the run goes on**, if there is no time limit
and the callbacks answer alike. -/
theorem continues_of_withTolerance (hle : o.tol ≤ tol) (htime : o.timeLimit = none)
    (hanswers : (standard p o callback clock).AnswersAlike
      (standard p (o.withTolerance tol htol) callback' clock'))
    (h : (standard p (o.withTolerance tol htol) callback' clock').Continues
      ((Point.blindStart p.m p.n).indicators p) as) :
    (standard p o callback clock).Continues ((Point.blindStart p.m p.n).indicators p) as := by
  rw [← List.map_id as]
  refine h.map (fun as a _ step => by rwa [List.map_id]) fun as a before ih step answer go => ?_
  simp only [List.map_id, id_eq] at ih ⊢
  -- Both solves have accepted the iteration, so their callbacks answer the same.
  have hsame := hanswers.same as.length a
    (ih.getElem?_advances step (start_standard p o callback clock))
    (before.getElem?_advances step (start_standard p _ callback' clock'))
  obtain ⟨w, hw, honPath⟩ := (Continues.snoc before step answer go).path.onPath
  have hkappa : 0 ≤ ((standard p o callback clock).after
      ((Point.blindStart p.m p.n).indicators p) (as ++ [a])).point.kappa := by
    have hkappa_eq : _ = w.kappa := congrArg Iterate.kappa hw
    exact hkappa_eq.symm ▸ honPath.nonneg.kappa
  refine ⟨hsame.trans answer, undecided_of_withTolerance hle go.undecided rfl rfl hkappa, go.below,
    rfl, ?_⟩
  simp [timeIsUp, standard, htime]

/-- A callback that always answers answers alike in both runs, if it is the callback of both. -/
theorem answersAlike_of_callback
    (hanswers : ∀ answer, callback = some answer → ∀ snapshot, ∃ wish, answer snapshot = .ok wish) :
    (standard p o callback clock).AnswersAlike
      (standard p (o.withTolerance tol htol) callback clock') where
  left := (sound_standard p o callback clock hanswers).run_answers
  right := (sound_standard p _ callback clock' hanswers).run_answers
  same _ _ _ _ := rfl

end Run

/-- **A solve with a larger tolerance stops no later.**  Let there be no time limit, and let the
callbacks answer the same after the same iterations.  Then both solves return, the one with the
larger tolerance after no more iterations than the other one; the iterations that it has accepted
are the first ones of the other one, and so is its history. -/
theorem larger_tolerance_stops_earlier (hle : o.tol ≤ tol) (htime : o.timeLimit = none)
    (hanswers : (Run.standard p o callback clock).AnswersAlike
      (Run.standard p (o.withTolerance tol htol) callback' clock')) :
    ∃ r r', (solve p o callback clock).result = .ok r ∧
      (solve p (o.withTolerance tol htol) callback' clock').result = .ok r' ∧
      r'.nit ≤ r.nit ∧ r'.history <+: r.history ∧
      (solve p (o.withTolerance tol htol) callback' clock').advances <+:
        (solve p o callback clock).advances := by
  have hstart := Run.start_standard p o callback clock
  have hstart' := Run.start_standard p (o.withTolerance tol htol) callback' clock'
  obtain ⟨as, s, stop, hcourse⟩ :=
    hanswers.left.exists_course hstart (Run.kernels_standard p o callback clock)
  obtain ⟨as', s', stop', hcourse'⟩ :=
    hanswers.right.exists_course hstart' (Run.kernels_standard p _ callback' clock')
  obtain ⟨r, hr⟩ := hcourse.exists_result (Run.kernels_standard p o callback clock)
  obtain ⟨r', hr'⟩ := hcourse'.exists_result (Run.kernels_standard p _ callback' clock')
  obtain ⟨-, hnit, -, hhistory⟩ := Progress.fields_of_result hr
  obtain ⟨-, hnit', -, hhistory'⟩ := Progress.fields_of_result hr'
  have hearlier : as' <+: as ∧ s'.nit ≤ s.nit := by
    have hcontinues : ∀ {as}, _ → (Run.standard p o callback clock).Continues _ as := fun h =>
      Run.continues_of_withTolerance hle htime hanswers h
    cases hcourse' with
    | breakdown before step =>
      -- The same iteration breaks down in both solves.
      obtain ⟨rfl, rfl, -⟩ := hcourse.unique (.breakdown (hcontinues before) step)
      exact ⟨List.prefix_rfl, le_rfl⟩
    | @decision before a wish stop' hbefore step answer reason =>
      have hbegins := (hcontinues hbefore).begins step hcourse
      refine ⟨hbegins, hbegins.length_le.trans ?_⟩
      rcases hcourse.nit_cases with ⟨-, hlength⟩ | ⟨-, hlength⟩
      · exact hlength ▸ Nat.le_succ _
      · exact hlength.ge
  refine ⟨r, r', (hcourse.result_solve hstart).trans hr, (hcourse'.result_solve hstart').trans hr',
    ?_, ?_, ?_⟩
  · rw [hnit, hnit']
    exact hearlier.2
  · rw [hhistory, hhistory', hcourse.fields_eq.2.2, hcourse'.fields_eq.2.2]
    exact hearlier.1.map _
  · have hadvances := hcourse.advances_solve hstart
    have hadvances' := hcourse'.advances_solve hstart'
    exact hadvances.symm ▸ hadvances'.symm ▸ hearlier.1

end Tolerances

/-- The solves of the identity with the tolerances a hundredth and one, and a callback that asks to
stop after the third iteration. -/
theorem larger_tolerance_stops_earlier_identityProgram :
    (halfStep : Options ℝ).tol ≤ 1 ∧ (halfStep : Options ℝ).timeLimit = none ∧
      ∃ r r', (solve (identityProgram : Problem ℝ) halfStep
          (some fun snapshot => .ok (snapshot.nit == 3)) fun _ => 0).result = .ok r ∧
        (solve (identityProgram : Problem ℝ) (halfStep.withTolerance 1 one_pos)
          (some fun snapshot => .ok (snapshot.nit == 3)) fun _ => 0).result = .ok r' ∧
        r'.nit ≤ r.nit ∧ r'.history <+: r.history := by
  have hle : (halfStep : Options ℝ).tol ≤ 1 := by
    norm_num [halfStep]
  have hanswers : (Run.standard (identityProgram : Problem ℝ) halfStep
      (some fun snapshot => .ok (snapshot.nit == 3)) fun _ => 0).AnswersAlike
      (Run.standard identityProgram (halfStep.withTolerance 1 one_pos)
        (some fun snapshot => .ok (snapshot.nit == 3)) fun _ => 0) := by
    refine Run.answersAlike_of_callback ?_
    rintro answer ⟨⟩ snapshot
    exact ⟨_, rfl⟩
  obtain ⟨r, r', hr, hr', hnit, hhistory, -⟩ := larger_tolerance_stops_earlier hle rfl hanswers
  exact ⟨hle, rfl, r, r', hr, hr', hnit, hhistory⟩

end SelfDual
