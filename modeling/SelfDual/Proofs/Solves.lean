import SelfDual.Proofs.Iteration
/-!
**What every solve keeps.**

A solve is read here as the list of its accepted iterations.  Along it the complementarity decreases
strictly, all residuals stay those of the blind start times the complementarity, and no coordinate
becomes negative.  So `tau` is positive wherever a solve divides by it.

Main definitions:

* `Problem.shrunk` — the residuals of the blind start, times a number;
* `Run.standard`, `SolveEnds` — the loop of a solve, and how it ends;
* `lastMu`, `muAt` — the complementarity where a path ends, and at a place of it.

Main results:

* `Progress.exists_result` — a point with `tau` other than zero has a result;
* `exists_solveEnds` — **the end of a solve**, with the point where it ends;
* `residuals_shrink` — **all residuals shrink by the same numbers**;
* `solve_stays_nonneg` — **no coordinate becomes negative**, and no solution divides by zero.
-/

set_option autoImplicit false

open Matrix

namespace SelfDual

variable {K : Type} [ExactField K]

/-! ### Results -/

theorem Tensor.exists_maxNorm {n : ℕ} (v : Fin n → K) (hn : 0 < n) :
    ∃ a, (ofVector v).maxNorm = .ok a := by
  have habs : (ofVector v).maxNorm = (ofVector v).abs.maximum := rfl
  cases hlist : (ofVector v).abs.toList with
  | nil =>
    have hlength : (ofVector v).abs.toList.length = 0 := congrArg List.length hlist
    simp [abs, map, toList, ofVector] at hlength
    omega
  | cons a bs => exact ⟨_, by rw [habs, maximum, hlist]⟩

theorem exists_maxNormOrZero {n : ℕ} (v : Fin n → K) :
    ∃ a, maxNormOrZero (Tensor.ofVector v) = .ok a := by
  have hsize : (Tensor.ofVector v).size = n := by simp
  rw [maxNormOrZero, hsize]
  rcases Nat.eq_zero_or_pos n with hn | hn
  · exact ⟨0, if_pos hn⟩
  · rw [if_neg hn.ne']
    exact Tensor.exists_maxNorm v hn

/-- The result in a state at the point `w`, with the norms of the residuals left open. -/
def Progress.resultAt {m n : ℕ} (s : Progress K) (w : Point K m n) (tol : K) (stop : Stop)
    (primal dual : K) : Result K where
  x := snap tol (.ofVector (w.tau⁻¹ • w.x))
  y := .ofVector (w.tau⁻¹ • w.y)
  z := .ofVector (w.tau⁻¹ • w.z)
  objective := s.indicators.obj
  stop := stop
  nit := s.nit
  primalResidual := primal
  dualResidual := dual
  history := s.history

/-- **The result** at a point where `tau` is not zero. -/
theorem Progress.exists_result (p : Problem K) {s : Progress K} {w : Point K p.m p.n}
    (hs : s.point = w.iterate) (htau : w.tau ≠ 0) (tol : K) (stop : Stop) :
    ∃ primal dual, s.result p tol stop = .ok (s.resultAt w tol stop primal dual) := by
  have hsnap : snap tol (.ofVector (w.tau⁻¹ • w.x)) = .ofVector fun i =>
      if w.tau⁻¹ * w.x i < tol then 0 else w.tau⁻¹ * w.x i := Tensor.map_ofVector _ _
  obtain ⟨primal, hprimal⟩ := exists_maxNormOrZero
    ((p.matrix *ᵥ fun i => if w.tau⁻¹ * w.x i < tol then 0 else w.tau⁻¹ * w.x i) - p.target)
  obtain ⟨dual, hdual⟩ := Tensor.exists_maxNorm
    (p.cost - p.matrixᵀ *ᵥ (w.tau⁻¹ • w.y) - w.tau⁻¹ • w.z) p.n_pos
  refine ⟨primal, dual, ?_⟩
  rw [mulVec_smul] at hdual
  simp [Progress.result, resultAt, hs, Tensor.div_vector_scalar _ _ htau, hsnap, primalResidual,
    dualResidual, p.A_eq, p.b_eq, p.c_eq, mulVec_smul, hprimal, hdual, pure, Except.pure]

/-! ### The end of a solve -/

section Ends

variable (p : Problem K) (o : Options K) (callback : Option (Callback K)) (clock : ℕ → K)

/-- The loop of a solve. -/
def Run.standard : Run K :=
  { problem := p, options := o, kernels := .standard p o, callback, clock }

/-- **How a solve ends**: its loop ends in the state `s` with an answer, at the point `w`. -/
structure SolveEnds (s : Progress K) (answer : Except Error Stop) (w : Point K p.m p.n) : Prop where
  ending : (Run.standard p o callback clock).Ending s answer
  loop : (Run.standard p o callback clock).loop o.maxiter ((Run.standard p o callback clock).start
    ((Point.blindStart p.m p.n).indicators p)) = (s, answer)
  advances : (solve p o callback clock).advances = Event.advances s.events
  point : s.point = w.iterate
  path : (Kernels.standard p o).Path (.blindStart p.m p.n) (solve p o callback clock).advances
    w.iterate
  onPath : OnPath p o w
  history : s.history = (solve p o callback clock).advances.map (·.indicators)
  observed : ∀ snapshot, .observed snapshot ∈ (solve p o callback clock).events →
    ∃ a ∈ (solve p o callback clock).advances, snapshot.Shows a
  brokeDown : ∀ nit b, .brokeDown nit b ∈ (solve p o callback clock).events →
    (Kernels.standard p o).advance w.iterate = .error (.breakdown b)
  result : (solve p o callback clock).result = answer.bind (s.result p o.tol)

/-- The indicators of the blind start are always there. -/
theorem solve_eq : solve p o callback clock = (Run.standard p o callback clock).solveFrom
    ((Point.blindStart p.m p.n).indicators p) := by
  have hstart : indicators .off p (.blindStart p.m p.n) =
      .ok ((Point.blindStart p.m p.n).indicators p) := by
    rw [← Point.iterate_blindStart]
    exact indicators_exact .off p one_pos
  rw [solve, Run.solve, hstart]
  rfl

theorem exists_solveEnds : ∃ s answer w, SolveEnds p o callback clock s answer w := by
  obtain ⟨s, answer, hending, hloop, hadvances, hevents, hresult⟩ :=
    (Run.standard p o callback clock).exists_ending ((Point.blindStart p.m p.n).indicators p)
  rw [← solve_eq] at hadvances hevents hresult
  have hreached := hending.reached
  have hpath := hreached.path
  rw [← hadvances] at hpath
  obtain ⟨w, hw, honPath⟩ := Kernels.Path.onPath hpath
  -- The report of the end, the one event that is not the loop's, shows and breaks nothing.
  refine ⟨s, answer, w, hending, hloop, hadvances, hw, hw ▸ hpath, honPath, ?_, ?_, ?_, hresult⟩
  · rw [hadvances]
    exact hreached.history
  · intro snapshot hmem
    rw [hadvances]
    rcases hevents _ hmem with hold | ⟨nit, message, hclosed⟩
    · exact hreached.observed snapshot hold
    · cases hclosed
  · intro nit b hmem
    rcases hevents _ hmem with hold | ⟨nit', message, hclosed⟩
    · exact hw ▸ hreached.brokeDown nit b hold
    · cases hclosed

variable {p o callback clock} in
/-- What a solve returns is the result in the state in which its loop has ended. -/
theorem SolveEnds.exists_of_result {s : Progress K} {answer : Except Error Stop}
    {w : Point K p.m p.n} (h : SolveEnds p o callback clock s answer w) {r : Result K}
    (hr : (solve p o callback clock).result = .ok r) :
    ∃ stop primal dual, answer = .ok stop ∧ r = s.resultAt w o.tol stop primal dual := by
  rw [h.result] at hr
  obtain ⟨stop, hanswer, hstop⟩ := exists_of_bind hr
  obtain ⟨primal, dual, hs⟩ := Progress.exists_result p h.point h.onPath.tau_pos.ne' o.tol stop
  exact ⟨stop, primal, dual, hanswer, Except.ok.inj (hstop.symm.trans hs)⟩

end Ends

/-! ### Shrinking residuals -/

namespace Problem

/-- The residuals of the blind start, times a number. -/
def shrunk (p : Problem K) (theta : K) : Residuals K where
  primal := .ofVector (theta • (p.target - p.matrix *ᵥ 1))
  dual := .ofVector (theta • (p.cost - 1))
  gap := theta * (1 + ∑ i, p.cost i)
  mu := theta

theorem primal_blindStart (p : Problem K) :
    (Point.blindStart p.m p.n).primal p = p.target - p.matrix *ᵥ 1 := by
  rw [Point.primal]
  exact congrArg (· - _) (one_smul K _)

theorem dual_blindStart (p : Problem K) :
    (Point.blindStart p.m p.n).dual p = p.cost - 1 := by
  simp [Point.dual, Point.blindStart]

theorem gap_blindStart (p : Problem K) :
    (Point.blindStart p.m p.n).gap p = 1 + ∑ i, p.cost i := by
  simp [Point.gap, Point.blindStart, dotProduct]

end Problem

namespace OnPath

variable {p : Problem K} {o : Options K} {w : Point K p.m p.n}

/-- The residuals on a path are those of the blind start, shrunk to the complementarity. -/
theorem residuals_eq (h : OnPath p o w) : w.residuals p = p.shrunk w.mu := by
  rw [Point.residuals, h.scales.primal, h.scales.dual, h.scales.gap, p.primal_blindStart,
    p.dual_blindStart, p.gap_blindStart, Problem.shrunk]

theorem rhoP_eq (h : OnPath p o w) : (w.indicators p).rhoP =
    w.mu * (ExactField.norm (p.target - p.matrix *ᵥ 1) /
      max 1 (ExactField.norm (p.target - p.matrix *ᵥ 1))) := by
  rw [Point.indicators, h.scales.primal, p.primal_blindStart,
    ExactField.norm_smul h.nonneg.mu_nonneg, mul_div_assoc]

theorem rhoD_eq (h : OnPath p o w) : (w.indicators p).rhoD =
    w.mu * (ExactField.norm (p.cost - 1) / max 1 (ExactField.norm (p.cost - 1))) := by
  rw [Point.indicators, h.scales.dual, p.dual_blindStart,
    ExactField.norm_smul h.nonneg.mu_nonneg, mul_div_assoc]

theorem rhoG_eq (h : OnPath p o w) : (w.indicators p).rhoG =
    w.mu * (|1 + ∑ i, p.cost i| / max 1 |1 + ∑ i, p.cost i|) := by
  rw [Point.indicators, h.scales.gap, p.gap_blindStart, abs_mul,
    abs_of_nonneg h.nonneg.mu_nonneg, mul_div_assoc]

end OnPath

/-- The complementarity where a path ends; that of the blind start is one. -/
def lastMu (as : List (Advance K)) : K := (as.getLast?.map (·.indicators.rhoMu)).getD 1

theorem lastMu_snoc (as : List (Advance K)) (a : Advance K) :
    lastMu (as ++ [a]) = a.indicators.rhoMu := by
  simp [lastMu]

/-- The last indicators of a path are those of the point where it ends. -/
theorem Kernels.Path.lastIndicators_eq {p : Problem K} {o : Options K} {as : List (Advance K)}
    {w : Point K p.m p.n}
    (h : (Kernels.standard p o).Path (.blindStart p.m p.n) as w.iterate) :
    (as.getLast?.map (·.indicators)).getD ((Point.blindStart p.m p.n).indicators p) =
      w.indicators p := by
  -- A path ends at the blind start, or where its last iteration has measured the indicators.
  generalize hit : w.iterate = it at h
  cases h with
  | nil =>
    rw [← Point.iterate_blindStart] at hit
    rw [Point.iterate_injective hit]
    rfl
  | snoc path step =>
    obtain ⟨w', rfl, hw'⟩ := path.onPath
    obtain ⟨d, alpha, -, rfl⟩ := hw'.exists_iteration step
    rw [List.getLast?_concat, Point.iterate_injective hit]
    rfl

theorem Kernels.Path.lastMu_eq {p : Problem K} {o : Options K} {as : List (Advance K)}
    {w : Point K p.m p.n}
    (h : (Kernels.standard p o).Path (.blindStart p.m p.n) as w.iterate) : lastMu as = w.mu := by
  have hmu := congrArg Indicators.rhoMu h.lastIndicators_eq
  cases hlast : as.getLast? with
  | none =>
    rw [hlast] at hmu
    rw [lastMu, hlast]
    exact (Point.mu_blindStart p.m p.n).symm.trans hmu
  | some a =>
    rw [hlast] at hmu
    rw [lastMu, hlast]
    exact hmu

/-- The complementarity after `k` iterations of a path. -/
def muAt (as : List (Advance K)) (k : ℕ) : K := lastMu (as.take k)

theorem muAt_succ {as : List (Advance K)} {a : Advance K} {k : ℕ} (hk : as[k]? = some a) :
    muAt as (k + 1) = a.indicators.rhoMu := by
  rw [muAt, List.take_add_one, hk, Option.toList_some, lastMu_snoc]

/-- The iteration at a place of a path, with the complementarity before it. -/
theorem Kernels.Path.exists_iteration_at {p : Problem K} {o : Options K} {as : List (Advance K)}
    {it : Iterate K} {a : Advance K} {k : ℕ}
    (h : (Kernels.standard p o).Path (.blindStart p.m p.n) as it) (hk : as[k]? = some a) :
    ∃ w d alpha, OnPath p o w ∧ IsIteration p o w d alpha ∧
      a = ⟨alpha, (w.move d alpha).iterate, (w.move d alpha).indicators p⟩ ∧
      muAt as k = w.mu := by
  obtain ⟨it', hpath, ha⟩ := h.exists_step hk
  obtain ⟨w, rfl, hw⟩ := hpath.onPath
  obtain ⟨d, alpha, hiteration, rfl⟩ := hw.exists_iteration ha
  exact ⟨w, d, alpha, hw, hiteration, rfl, hpath.lastMu_eq⟩

/-- **All residuals shrink by the same numbers.**  Along every solve there are numbers, one for the
blind start, that decrease strictly from each accepted iteration to the next, are never negative and
are what the residuals of the blind start have been multiplied by.  They are the complementarity in
the history, to which the other infeasibilities keep fixed ratios. -/
theorem residuals_shrink (p : Problem K) (o : Options K) (callback : Option (Callback K))
    (clock : ℕ → K) :
    ∃ theta : ℕ → K, theta 0 = 1 ∧
      (∀ traps, residuals traps p (.blindStart p.m p.n) = .ok (p.shrunk (theta 0))) ∧
      (∀ k a, (solve p o callback clock).advances[k]? = some a →
        0 ≤ theta (k + 1) ∧ theta (k + 1) < theta k ∧
        (∀ traps, residuals traps p a.point = .ok (p.shrunk (theta (k + 1)))) ∧
        a.indicators.rhoMu = theta (k + 1) ∧
        a.indicators.rhoP = theta (k + 1) * (ExactField.norm (p.target - p.matrix *ᵥ 1) /
          max 1 (ExactField.norm (p.target - p.matrix *ᵥ 1))) ∧
        a.indicators.rhoD = theta (k + 1) * (ExactField.norm (p.cost - 1) /
          max 1 (ExactField.norm (p.cost - 1))) ∧
        a.indicators.rhoG = theta (k + 1) * (|1 + ∑ i, p.cost i| /
          max 1 |1 + ∑ i, p.cost i|)) ∧
      ∀ r, (solve p o callback clock).result = .ok r →
        r.history = (solve p o callback clock).advances.map (·.indicators) ∧
        (r.history.map (·.rhoMu)).Pairwise (· > ·) := by
  obtain ⟨s, answer, w, hends⟩ := exists_solveEnds p o callback clock
  generalize hadvances : (solve p o callback clock).advances = as
  have hpath := hends.path
  have hhistory := hends.history
  rw [hadvances] at hpath hhistory
  refine ⟨muAt as, rfl, fun traps => ?_, fun k a hk => ?_, fun r hr => ?_⟩
  · rw [residuals_blindStart, (onPath_blindStart p o).residuals_eq, Point.mu_blindStart]
    rfl
  · obtain ⟨w, d, alpha, hw, hiteration, rfl, hbefore⟩ := hpath.exists_iteration_at hk
    have hnext : OnPath p o (w.move d alpha) := hw.step hiteration
    have hafter : muAt as (k + 1) = (w.move d alpha).mu := muAt_succ hk
    rw [hbefore, hafter]
    refine ⟨hnext.nonneg.mu_nonneg, hiteration.mu_lt, fun traps => ?_, rfl, hnext.rhoP_eq,
      hnext.rhoD_eq, hnext.rhoG_eq⟩
    rw [residuals_exact, hnext.residuals_eq]
  · obtain ⟨stop, primal, dual, -, rfl⟩ := hends.exists_of_result hr
    refine ⟨hhistory, ?_⟩
    rw [Progress.resultAt, hhistory, List.map_map]
    -- A path decreases if each of its iterations does.
    refine List.IsChain.pairwise (List.isChain_iff_getElem.2 fun k hk => ?_)
    have hlength : k + 1 < as.length := by simpa using hk
    obtain ⟨w, d, alpha, -, hiteration, ha, hbefore⟩ :=
      hpath.exists_iteration_at (List.getElem?_eq_getElem hlength)
    rw [muAt_succ (List.getElem?_eq_getElem (Nat.lt_of_succ_lt hlength))] at hbefore
    simp only [List.getElem_map, Function.comp_apply, gt_iff_lt]
    rw [hbefore, ha]
    exact hiteration.mu_lt

/-! ### Signs -/

/-- **No coordinate becomes negative.**  At the blind start and at every accepted point of a solve
all coordinates are nonnegative and `tau` is positive, all coordinates are positive if `alpha0` is
below one, and every step that is computed lies in `(0, 1]`.  So what the callback is shown and what
is returned has been divided by a `tau` that is not zero: the divisions succeed with traps as
well. -/
theorem solve_stays_nonneg (p : Problem K) (o : Options K) (callback : Option (Callback K))
    (clock : ℕ → K) :
    (∀ it, it = .blindStart p.m p.n ∨ it ∈ (solve p o callback clock).advances.map (·.point) →
      (∃ w : Point K p.m p.n, it = w.iterate ∧ w.HasSigns o) ∧
      ∀ d alpha, (Kernels.standard p o).direction it = .ok d →
        (Kernels.standard p o).stepLength it d = .ok alpha → 0 < alpha ∧ alpha ≤ 1) ∧
      (∀ a ∈ (solve p o callback clock).advances, 0 < a.alpha ∧ a.alpha ≤ 1) ∧
      (∀ snapshot, .observed snapshot ∈ (solve p o callback clock).events →
        ∃ a ∈ (solve p o callback clock).advances, snapshot.alpha = a.alpha ∧
          a.point.solution .on = .ok snapshot.x) ∧
      ∀ r, (solve p o callback clock).result = .ok r → ∃ w : Point K p.m p.n,
        ((solve p o callback clock).advances.getLast?.map (·.point)).getD
          (.blindStart p.m p.n) = w.iterate ∧
        w.HasSigns o ∧
        (∃ x, w.iterate.solution .on = .ok x ∧ r.x = snap o.tol x) ∧
        Tensor.div .on w.iterate.y (.scalar w.tau) = .ok r.y ∧
        Tensor.div .on w.iterate.z (.scalar w.tau) = .ok r.z := by
  obtain ⟨s, answer, w, hends⟩ := exists_solveEnds p o callback clock
  have haccepted : ∀ a ∈ (solve p o callback clock).advances, 0 < a.alpha ∧ a.alpha ≤ 1 ∧
      ∃ w : Point K p.m p.n, a.point = w.iterate ∧ OnPath p o w := by
    intro a ha
    obtain ⟨k, hk⟩ := List.getElem?_of_mem ha
    obtain ⟨w', d, alpha, hw', hiteration, rfl, -⟩ := hends.path.exists_iteration_at hk
    exact ⟨hiteration.pos, hiteration.step.le_one, w'.move d alpha, rfl, hw'.step hiteration⟩
  refine ⟨fun it hit => ?_, fun a ha => ?_, fun snapshot hmem => ?_, fun r hr => ?_⟩
  · obtain ⟨w', rfl, honPath⟩ : ∃ w : Point K p.m p.n, it = w.iterate ∧ OnPath p o w := by
      rcases hit with rfl | hmem
      · exact ⟨_, (Point.iterate_blindStart p.m p.n).symm, onPath_blindStart p o⟩
      · obtain ⟨a, ha, rfl⟩ := List.mem_map.1 hmem
        exact (haccepted a ha).2.2
    exact ⟨⟨w', rfl, honPath.toHasSigns⟩, fun d alpha hd halpha => honPath.step_mem hd halpha⟩
  · obtain ⟨hpos, hle, -⟩ := haccepted a ha
    exact ⟨hpos, hle⟩
  · obtain ⟨a, ha, hshows⟩ := hends.observed snapshot hmem
    obtain ⟨-, -, w', hw', honPath⟩ := haccepted a ha
    have hx := hshows.x
    rw [hw', Point.solution_exact .off honPath.tau_pos.ne'] at hx
    refine ⟨a, ha, hshows.alpha, ?_⟩
    rw [hw', Point.solution_exact .on honPath.tau_pos.ne', hx]
  · have htau : w.tau ≠ 0 := hends.onPath.tau_pos.ne'
    obtain ⟨stop, primal, dual, -, rfl⟩ := hends.exists_of_result hr
    exact ⟨w, hends.path.last_point.symm, hends.onPath.toHasSigns,
      ⟨_, Point.solution_exact .on htau, rfl⟩, Tensor.div_vector_scalar .on w.y htau,
      Tensor.div_vector_scalar .on w.z htau⟩

end SelfDual
