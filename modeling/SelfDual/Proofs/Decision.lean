import SelfDual.Proofs.Boundedness
/-!
**How a solve decides.**

After an accepted iteration a loop stops for the first reason that applies.  This module names the
reasons with all that each of them says, for any scalars and any kernels, and shows that a loop
which stops for one has it at the last accepted iteration, whose point and indicators are those of
the state it ends in.  A solve of a linear program that ends with a decision therefore has one point
that its status, its history and its solution all belong to.

Main definitions:

* `Run.Reason` — the reasons to stop after an accepted iteration;
* `Run.Decided` — a state in which a loop has stopped for one of them;
* `DecidedAt` — a solve of a linear program that has decided at a point.

Main results:

* `OnPath.residuals_lt_of_certificate` — **what a certificate says** at a point of a solve,
  whichever of its two tests it has passed;
* `Run.verdict_eq_iff` — **a verdict is a reason**;
* `Run.decided_of_loop` — **a loop that stops has a reason at its last accepted iteration**;
* `exists_decidedAt` — **a solve that decides** has accepted its last point, and the result is that
  of this point;
* `DecidedAt.isSolved`, `DecidedAt.infeasible`, `DecidedAt.unbounded` — the tests that the point has
  passed.
-/

set_option autoImplicit false

open Matrix

namespace SelfDual

/-! ### Tests of the indicators -/

namespace Indicators

variable {R : Type} [Scalar R] {ind : Indicators R} {tau kappa tol : R}

theorem isSolved_iff :
    ind.isSolved tol = true ↔ ind.rhoP ≤ tol ∧ ind.rhoD ≤ tol ∧ ind.rhoA ≤ tol :=
  decide_eq_true_iff

theorem residualsVanish_iff : ind.residualsVanish tau kappa tol = true ↔
    ind.rhoP < tol ∧ ind.rhoD < tol ∧ ind.rhoG < tol ∧ tau < tol * Scalar.greatest 1 kappa :=
  decide_eq_true_iff

theorem complementarityVanishes_iff : ind.complementarityVanishes tau kappa tol = true ↔
    ind.rhoMu < tol ∧ tau < tol * Scalar.least 1 kappa :=
  decide_eq_true_iff

end Indicators

/-- What an infeasibility is divided by is not smaller than at the blind start. -/
theorem ExactField.div_max_le_one {K : Type} [ExactField K] (a : K) : a / max 1 a ≤ 1 :=
  div_le_one_of_le₀ (le_max_right 1 a) (zero_le_one.trans (le_max_left 1 a))

namespace OnPath

variable {K : Type} [ExactField K] {p : Problem K} {o : Options K} {w : Point K p.m p.n}

theorem rhoP_le_mu (h : OnPath p o w) : (w.indicators p).rhoP ≤ w.mu :=
  h.rhoP_eq.trans_le (mul_le_of_le_one_right h.nonneg.mu_nonneg (ExactField.div_max_le_one _))

theorem rhoD_le_mu (h : OnPath p o w) : (w.indicators p).rhoD ≤ w.mu :=
  h.rhoD_eq.trans_le (mul_le_of_le_one_right h.nonneg.mu_nonneg (ExactField.div_max_le_one _))

theorem rhoG_le_mu (h : OnPath p o w) : (w.indicators p).rhoG ≤ w.mu :=
  h.rhoG_eq.trans_le (mul_le_of_le_one_right h.nonneg.mu_nonneg (ExactField.div_max_le_one _))

/-- **What a certificate says** at a point of a solve.  No infeasibility exceeds the
complementarity there, so that the second of the two tests implies the first. -/
theorem residuals_lt_of_certificate (h : OnPath p o w) {tol : K} (htol : 0 ≤ tol)
    (hc : (w.indicators p).isCertificate w.tau w.kappa tol = true) :
    (w.indicators p).rhoP < tol ∧ (w.indicators p).rhoD < tol ∧ (w.indicators p).rhoG < tol ∧
      w.tau < tol * max 1 w.kappa := by
  rcases (Bool.or_eq_true _ _).mp hc with hresiduals | hcomplementarity
  · rw [Indicators.residualsVanish_iff, Scalar.greatest_exact] at hresiduals
    exact hresiduals
  · rw [Indicators.complementarityVanishes_iff, Scalar.least_exact] at hcomplementarity
    obtain ⟨hmu, htau⟩ := hcomplementarity
    have hkappa : tol * min 1 w.kappa ≤ tol * max 1 w.kappa :=
      mul_le_mul_of_nonneg_left min_le_max htol
    exact ⟨h.rhoP_le_mu.trans_lt hmu, h.rhoD_le_mu.trans_lt hmu, h.rhoG_le_mu.trans_lt hmu,
      htau.trans_le hkappa⟩

end OnPath

/-! ### Reasons to stop -/

namespace Run

section Loops

variable {R : Type} [Scalar R]

/-- The indicators of a state are neither those of a solution nor those of a certificate. -/
structure Undecided (run : Run R) (s : Progress R) : Prop where
  unsolved : s.indicators.isSolved run.options.tol = false
  uncertified : s.indicators.isCertificate s.point.tau s.point.kappa run.options.tol = false

/-- The indicators of a state are those of a certificate; its multipliers have this objective. -/
structure Certified (run : Run R) (s : Progress R) (dualObjective : R) : Prop where
  unsolved : s.indicators.isSolved run.options.tol = false
  certificate : s.indicators.isCertificate s.point.tau s.point.kappa run.options.tol = true
  dot : Tensor.dot .off run.problem.b s.point.y = .ok dualObjective

/-- **Why a loop stops after an accepted iteration.**  Each reason says that none of those before
it applies. -/
inductive Reason (run : Run R) (s : Progress R) (wish : Bool) : Stop → Prop where
  | solved (solved : s.indicators.isSolved run.options.tol = true) : Reason run s wish .solved
  | infeasible {dualObjective : R} (certified : run.Certified s dualObjective)
      (lt : run.options.tol < dualObjective) : Reason run s wish .infeasible
  | unbounded {dualObjective : R} (certified : run.Certified s dualObjective)
      (not_lt : ¬run.options.tol < dualObjective) : Reason run s wish .unbounded
  | iterationLimit (undecided : run.Undecided s) (limit : run.options.maxiter ≤ s.nit) :
      Reason run s wish .iterationLimit
  | callback (undecided : run.Undecided s) (below : s.nit < run.options.maxiter)
      (wished : wish = true) : Reason run s wish .callback
  | timeLimit (undecided : run.Undecided s) (below : s.nit < run.options.maxiter)
      (unwished : wish = false) (timeIsUp : run.timeIsUp s.nit = true) :
      Reason run s wish .timeLimit

variable {run : Run R} {s s' : Progress R} {a : Advance R} {wish : Bool} {stop : Stop}

theorem reason_of_verdict (h : run.verdict s wish = .ok (some stop)) : run.Reason s wish stop := by
  rw [verdict] at h
  split at h
  case isTrue hsolved =>
    obtain rfl := Option.some.inj (Except.ok.inj h)
    exact .solved hsolved
  case isFalse hsolved =>
    have hunsolved := Bool.eq_false_of_not_eq_true hsolved
    split at h
    case isTrue hcertificate =>
      obtain ⟨dualObjective, hdot, hstop⟩ := exists_of_bind h
      obtain rfl := Option.some.inj (Except.ok.inj hstop)
      split
      case isTrue hlt => exact .infeasible ⟨hunsolved, hcertificate, hdot⟩ hlt
      case isFalse hlt => exact .unbounded ⟨hunsolved, hcertificate, hdot⟩ hlt
    case isFalse hcertificate =>
      have hundecided : run.Undecided s := ⟨hunsolved, Bool.eq_false_of_not_eq_true hcertificate⟩
      split at h
      case isTrue hlimit =>
        obtain rfl := Option.some.inj (Except.ok.inj h)
        exact .iterationLimit hundecided hlimit
      case isFalse hlimit =>
        have hbelow := Nat.lt_of_not_le hlimit
        split at h
        case isTrue hwish =>
          obtain rfl := Option.some.inj (Except.ok.inj h)
          exact .callback hundecided hbelow hwish
        case isFalse hwish =>
          split at h
          case isTrue htime =>
            obtain rfl := Option.some.inj (Except.ok.inj h)
            exact .timeLimit hundecided hbelow (Bool.eq_false_of_not_eq_true hwish) htime
          case isFalse htime => cases h

/-- **A verdict is a reason.** -/
theorem verdict_eq_iff : run.verdict s wish = .ok (some stop) ↔ run.Reason s wish stop := by
  refine ⟨reason_of_verdict, fun h => ?_⟩
  cases h with
  | solved h => simp [verdict, h]
  | infeasible h hlt =>
    simp [verdict, h.unsolved, h.certificate, h.dot, hlt, pure, Except.pure]
  | unbounded h hlt =>
    simp [verdict, h.unsolved, h.certificate, h.dot, hlt, pure, Except.pure]
  | iterationLimit h hlimit => simp [verdict, h.unsolved, h.uncertified, hlimit]
  | callback h hbelow hwish =>
    simp [verdict, h.unsolved, h.uncertified, Nat.not_le_of_lt hbelow, hwish]
  | timeLimit h hbelow hwish htime =>
    simp [verdict, h.unsolved, h.uncertified, Nat.not_le_of_lt hbelow, hwish, htime]

/-! ### What a report keeps -/

/-- A report adds events and changes nothing else. -/
theorem observe_eq (run : Run R) (s : Progress R) (alpha : R) :
    ∃ events, Event.advances events = [] ∧ (run.observe s alpha).1 = s.report events := by
  have hrows : ∀ (ind : Indicators R) (alpha : R), Event.advances
      (if run.options.verbose then [Event.row ind (some alpha)] else []) = [] := by
    intro ind alpha
    split <;> rfl
  rw [observe]
  split
  · exact ⟨_, hrows _ _, rfl⟩
  · split
    · exact ⟨_, hrows _ _, rfl⟩
    · refine ⟨_ ++ _, ?_, congrArg (fun events => { s with events }) (List.append_assoc _ _ _)⟩
      rw [Event.advances_append, hrows]
      rfl

/-! ### Loops that decide -/

/-- **A loop has decided**: it has stopped for a reason, in a state with the point and the
indicators of the last accepted iteration. -/
structure Decided (run : Run R) (s : Progress R) (stop : Stop) : Prop where
  last : ∃ a, (Event.advances s.events).getLast? = some a ∧ a.point = s.point ∧
    a.indicators = s.indicators
  reason : ∃ wish, run.Reason s wish stop

/-- After an accepted iteration and its report, a verdict decides. -/
theorem decided_of_observe {alpha : R}
    (h : run.verdict (run.observe (s.accept a) alpha).1 wish = .ok (some stop)) :
    run.Decided (run.observe (s.accept a) alpha).1 stop := by
  obtain ⟨events, hevents, hobserve⟩ := run.observe_eq (s.accept a) alpha
  refine ⟨⟨a, ?_, ?_, ?_⟩, wish, reason_of_verdict h⟩
  · have hlast : Event.advances (s.accept a).events = Event.advances s.events ++ [a] :=
      Event.advances_append _ _
    rw [hobserve, Progress.report, Event.advances_append, hevents, List.append_nil, hlast,
      List.getLast?_concat]
  · rw [hobserve]
    rfl
  · rw [hobserve]
    rfl

/-- **A loop that stops has decided**, unless it has broken down or has no iterations left. -/
theorem decided_of_loop {left : Nat} (h : run.loop left s = (s', .ok stop))
    (hbreak : stop ≠ .breakdown) (hlimit : stop ≠ .iterationLimit) : run.Decided s' stop := by
  -- The last turn of the loop accepts an iteration, reports it and asks for the verdict.
  induction left generalizing s with
  | zero =>
    obtain ⟨rfl, hstop⟩ := Prod.mk.inj h
    exact absurd (Except.ok.inj hstop).symm hlimit
  | succ left ih =>
    rw [loop] at h
    split at h
    · obtain ⟨-, hstop⟩ := Prod.mk.inj h
      exact absurd (Except.ok.inj hstop).symm hbreak
    · cases (Prod.mk.inj h).2
    next a ha =>
      split at h
      · cases (Prod.mk.inj h).2
      next t wish hobserve =>
        split at h
        · cases (Prod.mk.inj h).2
        next decision hverdict =>
          obtain ⟨rfl, hstop⟩ := Prod.mk.inj h
          obtain rfl := Except.ok.inj hstop
          have hstate : (run.observe (s.accept a) a.alpha).1 = t := congrArg Prod.fst hobserve
          rw [← hstate] at hverdict ⊢
          exact decided_of_observe hverdict
        · exact ih h

end Loops

end Run

/-! ### Solves that decide -/

/-- A status other than that of the iteration limit belongs to one reason. -/
theorem Stop.eq_of_status {stop decided : Stop} (h : stop.status = decided.status)
    (hlimit : decided.status ≠ .iterationLimit) : stop = decided := by
  cases decided <;> cases stop <;> simp_all [status]

section Decisions

variable {K : Type} [ExactField K] (p : Problem K) (o : Options K)
  (callback : Option (Callback K)) (clock : ℕ → K)

/-- **A solve has decided at the point `w`**: the last accepted iteration has reached it, its
indicators are the last ones of the history and give the reason, and the result is that of this
point. -/
structure DecidedAt (r : Result K) (w : Point K p.m p.n) : Prop where
  last : ∃ alpha, (solve p o callback clock).advances.getLast? =
    some ⟨alpha, w.iterate, w.indicators p⟩
  onPath : OnPath p o w
  balanced : w.Balanced
  reason : ∃ s wish, s.point = w.iterate ∧ s.indicators = w.indicators p ∧
    (Run.standard p o callback clock).Reason s wish r.stop
  history : r.history.getLast? = some (w.indicators p)
  x : r.x = snap o.tol (.ofVector (w.tau⁻¹ • w.x))
  y : r.y = .ofVector (w.tau⁻¹ • w.y)
  z : r.z = .ofVector (w.tau⁻¹ • w.z)
  objective : r.objective = p.cost ⬝ᵥ (w.tau⁻¹ • w.x)

variable {p o callback clock}

/-- **A solve that decides** has accepted its last point, and the result is that of this point. -/
theorem exists_decidedAt {r : Result K} (hr : (solve p o callback clock).result = .ok r)
    (hbreak : r.status ≠ .numericalError) (hlimit : r.status ≠ .iterationLimit) :
    ∃ w, DecidedAt p o callback clock r w := by
  obtain ⟨s, answer, w, hends⟩ := exists_solveEnds p o callback clock
  obtain ⟨stop, primal, dual, rfl, rfl⟩ := hends.exists_of_result hr
  have hdecided : (Run.standard p o callback clock).Decided s stop := by
    refine Run.decided_of_loop hends.loop ?_ ?_
    · rintro rfl
      exact hbreak rfl
    · rintro rfl
      exact hlimit rfl
  obtain ⟨⟨a, ha, hpoint, hindicators⟩, wish, hreason⟩ := hdecided
  rw [← hends.advances] at ha
  -- The last iteration has measured the point that it has reached.
  obtain ⟨alpha, rfl⟩ : ∃ alpha, a = ⟨alpha, w.iterate, w.indicators p⟩ := by
    obtain ⟨k, hk⟩ := List.getElem?_of_mem (List.mem_of_getLast? ha)
    obtain ⟨v, d, alpha, -, -, rfl, -⟩ := hends.path.exists_iteration_at hk
    have hmoved : (v.move d alpha).iterate = w.iterate := hpoint.trans hends.point
    exact ⟨alpha, by rw [Point.iterate_injective hmoved]⟩
  refine ⟨w, ⟨alpha, ha⟩, hends.onPath, hends.path.balanced,
    ⟨s, wish, hends.point, hindicators.symm, hreason⟩, ?_, rfl, rfl, rfl, ?_⟩
  · rw [Progress.resultAt, hends.history, List.getLast?_map, ha]
    rfl
  · rw [Progress.resultAt, ← hindicators]
    rfl

/-! ### What a status says -/

theorem Run.Certified.dualObjective_eq {s : Progress K} {w : Point K p.m p.n}
    {dualObjective : K} (h : (Run.standard p o callback clock).Certified s dualObjective)
    (hs : s.point = w.iterate) : dualObjective = p.target ⬝ᵥ w.y := by
  have hdot : Tensor.dot .off p.b w.iterate.y = .ok dualObjective := hs ▸ h.dot
  rw [Point.dot_target] at hdot
  exact (Except.ok.inj hdot).symm

namespace DecidedAt

variable {r : Result K} {w : Point K p.m p.n}

theorem last_point (h : DecidedAt p o callback clock r w) :
    (solve p o callback clock).advances.getLast?.map (·.point) = some w.iterate := by
  obtain ⟨alpha, hlast⟩ := h.last
  rw [hlast]
  rfl

theorem last_mu (h : DecidedAt p o callback clock r w) :
    r.history.getLast?.map (·.rhoMu) = some w.mu := by
  rw [h.history]
  rfl

/-- A solve that ends with a solution has passed the test for one. -/
theorem isSolved (h : DecidedAt p o callback clock r w) (hstatus : r.status = .optimal) :
    (w.indicators p).isSolved o.tol = true := by
  obtain ⟨s, wish, -, hindicators, hreason⟩ := h.reason
  have hstop : r.stop = .solved := Stop.eq_of_status hstatus (by decide)
  rw [hstop] at hreason
  cases hreason with
  | solved hsolved => exact hindicators ▸ hsolved

/-- A solve that ends with infeasibility has a certificate with a multiplier for it. -/
theorem infeasible (h : DecidedAt p o callback clock r w) (hstatus : r.status = .infeasible) :
    (w.indicators p).isCertificate w.tau w.kappa o.tol = true ∧ o.tol < p.target ⬝ᵥ w.y := by
  obtain ⟨s, wish, hpoint, hindicators, hreason⟩ := h.reason
  have hstop : r.stop = .infeasible := Stop.eq_of_status hstatus (by decide)
  rw [hstop] at hreason
  cases hreason with
  | infeasible hcertified hlt =>
    have hcertificate := hcertified.certificate
    rw [hindicators, hpoint] at hcertificate
    exact ⟨hcertificate, hcertified.dualObjective_eq hpoint ▸ hlt⟩

/-- A solve that ends with unboundedness has a certificate without a multiplier for
infeasibility. -/
theorem unbounded (h : DecidedAt p o callback clock r w) (hstatus : r.status = .unbounded) :
    (w.indicators p).isCertificate w.tau w.kappa o.tol = true ∧ p.target ⬝ᵥ w.y ≤ o.tol := by
  obtain ⟨s, wish, hpoint, hindicators, hreason⟩ := h.reason
  have hstop : r.stop = .unbounded := Stop.eq_of_status hstatus (by decide)
  rw [hstop] at hreason
  cases hreason with
  | unbounded hcertified hlt =>
    have hcertificate := hcertified.certificate
    rw [hindicators, hpoint] at hcertificate
    exact ⟨hcertificate, not_lt.1 (hcertified.dualObjective_eq hpoint ▸ hlt)⟩

end DecidedAt

end Decisions

end SelfDual
