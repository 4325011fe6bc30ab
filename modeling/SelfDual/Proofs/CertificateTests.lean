import SelfDual.Proofs.Records
/-!
**One of the two tests for a certificate decides.**

A certificate can be shown in two ways: by residuals below the tolerance, or by a complementarity
below it, each while `tau` has vanished beside `kappa`.  For arbitrary indicators neither test
implies the other.  Along a solve all residuals are those of the blind start times the
complementarity, so that no infeasibility exceeds it; and the second test asks for more of `tau`.
So the second test never shows a certificate that the first one does not show, and a solve ends for
a certificate exactly if its last point passes the first test and none for a solution.

Main definitions:

* `Advance.Certifies` — an accepted iteration that shows a certificate and no solution.

Main results:

* `OnPath.residualsVanish_of_complementarityVanishes`, `OnPath.isCertificate_eq` — **the second test
  implies the first** at a point of a solve;
* `Run.Course.certified_iff` — a course ends for a certificate exactly if its last iteration shows
  one, for any scalars and any kernels;
* `certificate_by_residuals` — **the first test alone decides** for a certificate.
-/

set_option autoImplicit false

namespace SelfDual

/-! ### Points of a solve -/

namespace OnPath

variable {K : Type} [ExactField K] {p : Problem K} {o : Options K} {w : Point K p.m p.n} {tol : K}

/-- **The second test implies the first** at a point of a solve. -/
theorem residualsVanish_of_complementarityVanishes (h : OnPath p o w) (htol : 0 ≤ tol)
    (hc : (w.indicators p).complementarityVanishes w.tau w.kappa tol = true) :
    (w.indicators p).residualsVanish w.tau w.kappa tol = true := by
  rw [Indicators.residualsVanish_iff, Scalar.greatest_exact]
  exact h.residuals_lt_of_certificate htol (Bool.or_eq_true_iff.2 (.inr hc))

/-- A point of a solve shows a certificate exactly if it passes the first test. -/
theorem isCertificate_eq (h : OnPath p o w) (htol : 0 ≤ tol) :
    (w.indicators p).isCertificate w.tau w.kappa tol =
      (w.indicators p).residualsVanish w.tau w.kappa tol := by
  rw [Indicators.isCertificate, Bool.or_eq_left_iff_imp]
  exact h.residualsVanish_of_complementarityVanishes htol

end OnPath

/-- Every accepted iteration has led to a point of a solve, whose indicators it has. -/
theorem Kernels.Path.exists_onPath_of_mem {K : Type} [ExactField K] {p : Problem K} {o : Options K}
    {as : List (Advance K)} {it : Iterate K} {a : Advance K}
    (h : (Kernels.standard p o).Path (.blindStart p.m p.n) as it) (ha : a ∈ as) :
    ∃ w : Point K p.m p.n, OnPath p o w ∧ a.point = w.iterate ∧ a.indicators = w.indicators p := by
  obtain ⟨k, hk⟩ := List.getElem?_of_mem ha
  obtain ⟨v, d, alpha, hv, hiteration, rfl, -⟩ := h.exists_iteration_at hk
  exact ⟨v.move d alpha, hv.step hiteration, rfl, rfl⟩

/-! ### Ends of a course -/

section Courses

variable {R : Type} [Scalar R]

/-- An accepted iteration shows a certificate, and no solution. -/
structure Advance.Certifies (a : Advance R) (tol : R) : Prop where
  unsolved : a.indicators.isSolved tol = false
  certificate : a.indicators.isCertificate a.point.tau a.point.kappa tol = true

namespace Run

variable {run : Run R} {start : Indicators R} {as : List (Advance R)} {a : Advance R} {wish : Bool}
  {stop : Stop}

theorem indicators_after_snoc (run : Run R) (start : Indicators R) (as : List (Advance R))
    (a : Advance R) : (run.after start (as ++ [a])).indicators = a.indicators := by
  simp [after]

/-- Where a loop is certified, its last iteration shows a certificate. -/
theorem Certified.certifies {dualObjective : R}
    (h : run.Certified (run.after start (as ++ [a])) dualObjective) :
    a.Certifies run.options.tol where
  unsolved := by
    rw [← run.indicators_after_snoc start as a]
    exact h.unsolved
  certificate := by
    rw [← run.indicators_after_snoc start as a, ← run.point_after_snoc start as a]
    exact h.certificate

/-- Where a loop is undecided, its last iteration shows no certificate. -/
theorem Undecided.not_certifies (h : run.Undecided (run.after start (as ++ [a]))) :
    ¬a.Certifies run.options.tol := by
  intro hcertifies
  have hno := h.uncertified
  rw [run.indicators_after_snoc, run.point_after_snoc, hcertifies.certificate] at hno
  cases hno

/-- Where a loop goes on, its last iteration shows no certificate. -/
theorem Continues.not_certifies (h : run.Continues start as) (hlast : as.getLast? = some a) :
    ¬a.Certifies run.options.tol := by
  cases h with
  | nil => cases hlast
  | snoc before step answer proceeds =>
    obtain rfl := Option.some.inj (List.getLast?_concat.symm.trans hlast)
    exact proceeds.undecided.not_certifies

/-- A loop stops for a certificate exactly if its last iteration shows one. -/
theorem Reason.certified_iff (h : run.Reason (run.after start (as ++ [a])) wish stop) :
    stop.status = .infeasible ∨ stop.status = .unbounded ↔ a.Certifies run.options.tol := by
  cases h with
  | solved hsolved =>
    rw [run.indicators_after_snoc] at hsolved
    refine ⟨by simp [Stop.status], fun hcertifies => ?_⟩
    cases hsolved.symm.trans hcertifies.unsolved
  | infeasible hcertified hlt => exact ⟨fun _ => hcertified.certifies, fun _ => .inl rfl⟩
  | unbounded hcertified hlt => exact ⟨fun _ => hcertified.certifies, fun _ => .inr rfl⟩
  | iterationLimit hundecided => simp [Stop.status, hundecided.not_certifies]
  | callback hundecided => simp [Stop.status, hundecided.not_certifies]
  | timeLimit hundecided => simp [Stop.status, hundecided.not_certifies]

/-- **A course ends for a certificate exactly if its last iteration shows one.** -/
theorem Course.certified_iff {s : Progress R} (h : run.Course start as s (.ok stop)) :
    stop.status = .infeasible ∨ stop.status = .unbounded ↔
      ∃ a, as.getLast? = some a ∧ a.Certifies run.options.tol := by
  cases h with
  | breakdown before step =>
    -- The iteration before the one that breaks down has decided nothing.
    refine ⟨by simp [Stop.status], ?_⟩
    rintro ⟨a, hlast, hcertifies⟩
    exact absurd hcertifies (before.not_certifies hlast)
  | decision before step answer reason =>
    rw [reason.certified_iff, List.getLast?_concat]
    simp

end Run

end Courses

/-! ### Solves -/

section Solves

variable {K : Type} [ExactField K]

/-- **The first test alone decides for a certificate.**  At every accepted point of a solve the
second test implies the first, so that the point shows a certificate exactly if its residuals
vanish; and a solve ends for a certificate exactly if they do at its last accepted point, which
passes no test for a solution. -/
theorem certificate_by_residuals (p : Problem K) (o : Options K) (callback : Option (Callback K))
    (clock : ℕ → K) :
    (∀ a ∈ (solve p o callback clock).advances,
      (a.indicators.complementarityVanishes a.point.tau a.point.kappa o.tol = true →
        a.indicators.residualsVanish a.point.tau a.point.kappa o.tol = true) ∧
      a.indicators.isCertificate a.point.tau a.point.kappa o.tol =
        a.indicators.residualsVanish a.point.tau a.point.kappa o.tol) ∧
    ∀ r, (solve p o callback clock).result = .ok r →
      (r.status = .infeasible ∨ r.status = .unbounded ↔
        ∃ a, (solve p o callback clock).advances.getLast? = some a ∧
          a.indicators.isSolved o.tol = false ∧
          a.indicators.residualsVanish a.point.tau a.point.kappa o.tol = true) := by
  obtain ⟨s, answer, w, hends⟩ := exists_solveEnds p o callback clock
  have htest : ∀ a ∈ (solve p o callback clock).advances,
      a.indicators.isCertificate a.point.tau a.point.kappa o.tol =
        a.indicators.residualsVanish a.point.tau a.point.kappa o.tol := by
    intro a ha
    obtain ⟨v, hv, hpoint, hindicators⟩ := hends.path.exists_onPath_of_mem ha
    rw [hpoint, hindicators]
    exact hv.isCertificate_eq o.tol_pos.le
  refine ⟨fun a ha => ⟨fun hc => ?_, htest a ha⟩, fun r hr => ?_⟩
  · rw [← htest a ha]
    exact Bool.or_eq_true_iff.2 (.inr hc)
  · have hrun : (Run.standard p o callback clock).solve.result = .ok r := hr
    obtain ⟨start, as, s', hstart, hcourse, -⟩ := Run.exists_course_of_result hrun
    have hadvances : (solve p o callback clock).advances = as := hcourse.advances_solve hstart
    rw [hadvances] at htest ⊢
    refine hcourse.certified_iff.trans (exists_congr fun a => and_congr_right fun hlast => ?_)
    rw [← htest a (List.mem_of_getLast? hlast)]
    exact ⟨fun h => ⟨h.unsolved, h.certificate⟩, fun h => ⟨h.1, h.2⟩⟩

/-- The program that asks its variable to be minus one passes both tests after one iteration, and so
its solve ends for a certificate. -/
theorem certificate_by_residuals_negativeProgram :
    ∃ a r, (solve (negativeProgram : Problem ℝ) longStep none fun _ => 0).advances.getLast? =
        some a ∧
      a.indicators.complementarityVanishes a.point.tau a.point.kappa (1 / 100) = true ∧
      a.indicators.residualsVanish a.point.tau a.point.kappa (1 / 100) = true ∧
      (solve (negativeProgram : Problem ℝ) longStep none fun _ => 0).result = .ok r ∧
      (r.status = .infeasible ∨ r.status = .unbounded) := by
  obtain ⟨r, hr, hstatus, hdecided⟩ := decidedAt_negativeProgram
  obtain ⟨alpha, hlast⟩ := hdecided.last
  have hmu : ((Point.blindStart 1 1).move (⟨-1, -1, 0, -1, 0⟩ : Point ℝ 1 1) (999 / 1000)).mu =
      1 - 999 / 1000 := straightStart_negativeProgram.mu_move _
  have hsecond : (((Point.blindStart 1 1).move (⟨-1, -1, 0, -1, 0⟩ : Point ℝ 1 1)
      (999 / 1000)).indicators (negativeProgram : Problem ℝ)).complementarityVanishes
        (1 + 999 / 1000 * -1) (1 + 999 / 1000 * 0) (1 / 100) = true := by
    rw [Indicators.complementarityVanishes_iff, Scalar.least_exact]
    refine ⟨hmu.trans_lt (by norm_num), by norm_num⟩
  obtain ⟨htests, -⟩ := certificate_by_residuals (negativeProgram : Problem ℝ) longStep none
    fun _ => 0
  exact ⟨_, r, hlast, hsecond, (htests _ (List.mem_of_getLast? hlast)).1 hsecond, hr,
    .inl hstatus⟩

end Solves

end SelfDual
