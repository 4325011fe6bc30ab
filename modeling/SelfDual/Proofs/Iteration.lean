import SelfDual.Proofs.SearchDirection
import SelfDual.Proofs.Trajectory
/-!
**One iteration of the method.**

An iteration that is accepted moves along a search direction by a positive step.  It multiplies all
residuals and the complementarity by the same number below one, leaves no coordinate negative and
`tau` positive.  By induction along the path of a solve, what follows holds at all its points.

Main definitions:

* `IsIteration` — an accepted iteration;
* `Point.HasSigns`, `OnPath` — the signs at the points of a solve, and all that they have in common.

Main results:

* `advance_cases` — **an iteration is accepted, or it breaks down**, which does not happen at
  positive points with independent rows if `alpha0` is below one;
* `IsIteration.exists_factor` — the number that the residuals are multiplied by;
* `OnPath.step` — the step of the induction;
* `Kernels.Path.onPath` — **the points of a solve**.
-/

set_option autoImplicit false

namespace SelfDual

variable {K : Type} [ExactField K]

/-! ### Accepted iterations -/

/-- An accepted iteration: from `w` in the interior along a search direction `d` by a step
`alpha`. -/
structure IsIteration (p : Problem K) (o : Options K) (w d : Point K p.m p.n) (alpha : K) :
    Prop where
  interior : w.Interior
  independent : LinearIndependent K p.matrix.row
  direction : ∃ pred alpha', IsSearchDirection p w o.beta pred alpha' d
  step : w.IsStep d o.alpha0 alpha
  tau_pos : 0 < (w.move d alpha).tau

/-- **What an iteration can end with** at a point without negative coordinates. -/
theorem advance_cases (p : Problem K) (o : Options K) {w : Point K p.m p.n} (hw : w.Nonneg) :
    (∃ d alpha, (Kernels.standard p o).advance w.iterate =
        .ok ⟨alpha, (w.move d alpha).iterate, (w.move d alpha).indicators p⟩ ∧
      IsIteration p o w d alpha) ∨
    (∃ b, (Kernels.standard p o).advance w.iterate = .error (.breakdown b) ∧
      (o.alpha0 < 1 → w.Positive → ¬LinearIndependent K p.matrix.row)) := by
  rcases searchDirection_cases o.backend hw o.beta with
    ⟨pred, alpha', d, hd, hinterior, hrows, hdirection⟩ | ⟨b, hb, hdependent⟩
  swap
  · refine .inr ⟨b, ?_, fun _ => hdependent⟩
    simp [Kernels.advance, Kernels.standard, hb]
  obtain ⟨alpha, halpha, hstep⟩ := stepLength_exact .on hinterior.nonneg d o.alpha0_pos
  have hrest : 0 ≤ 1 - o.alpha0 := sub_nonneg.2 o.alpha0_le
  have hnonneg : (w.move d alpha).Nonneg := hstep.keeps.nonneg hrest hw
  have hadvance : (Kernels.standard p o).advance w.iterate =
      (indicators .on p (w.move d alpha).iterate >>= fun ind =>
        .ok ⟨alpha, (w.move d alpha).iterate, ind⟩) := by
    simp [Kernels.advance, Kernels.standard, hd, halpha, pure, Except.pure]
  -- What can still go wrong is that `tau` has reached zero, where there are no indicators.
  rcases hnonneg.tau.eq_or_lt with htau | htau
  · obtain ⟨b, hb⟩ := indicators_of_tau_eq_zero p htau.symm
    refine .inr ⟨b, by rw [hadvance, hb, error_bind], fun hlt hpos => ?_⟩
    have hmoved := hstep.keeps.positive (sub_pos.2 hlt) hpos
    exact absurd htau hmoved.tau.ne
  · refine .inl ⟨d, alpha, ?_, hinterior, hrows, ⟨pred, alpha', hdirection⟩, hstep, htau⟩
    rw [hadvance, indicators_exact .on p htau, ok_bind]

namespace IsIteration

variable {p : Problem K} {o : Options K} {w d : Point K p.m p.n} {alpha : K}

/-- The step is positive. -/
theorem pos (h : IsIteration p o w d alpha) : 0 < alpha := by
  obtain ⟨pred, alpha', hdirection⟩ := h.direction
  exact hdirection.step_pos o.beta_pos.le h.interior h.step

theorem nonneg (h : IsIteration p o w d alpha) : (w.move d alpha).Nonneg :=
  h.step.keeps.nonneg (sub_nonneg.2 o.alpha0_le) h.interior.nonneg

theorem positive (h : IsIteration p o w d alpha) (hlt : o.alpha0 < 1) (hw : w.Positive) :
    (w.move d alpha).Positive :=
  h.step.keeps.positive (sub_pos.2 hlt) hw

/-- **The factor of an iteration**: it multiplies the complementarity and all residuals by one
number, which is below one. -/
theorem exists_factor (h : IsIteration p o w d alpha) :
    ∃ t, 0 ≤ t ∧ t < 1 ∧ (w.move d alpha).mu = t * w.mu ∧
      ∀ v theta, Point.Scales p v w theta → Point.Scales p v (w.move d alpha) (t * theta) := by
  obtain ⟨pred, alpha', hdirection⟩ := h.direction
  have hgamma : 0 ≤ centering o.beta alpha' := hdirection.centering_nonneg o.beta_pos.le
  have hgamma_lt : centering o.beta alpha' < 1 :=
    hdirection.centering_lt_one o.beta_pos.le o.beta_lt
  have hrest : 0 < 1 - centering o.beta alpha' := sub_pos.2 hgamma_lt
  have hremoved : alpha * (1 - centering o.beta alpha') ≤ 1 :=
    mul_le_one₀ h.step.le_one hrest.le (sub_le_self 1 hgamma)
  refine ⟨1 - alpha * (1 - centering o.beta alpha'), sub_nonneg.2 hremoved,
    sub_lt_self 1 (mul_pos h.pos hrest), hdirection.mu_move alpha, fun v theta hv => ?_⟩
  exact hdirection.scales_move hv alpha

/-- The complementarity decreases. -/
theorem mu_lt (h : IsIteration p o w d alpha) : (w.move d alpha).mu < w.mu := by
  obtain ⟨t, -, hlt, hmu, -⟩ := h.exists_factor
  rw [hmu]
  exact mul_lt_of_lt_one_left (h.interior.mu_pos p.n_pos) hlt

end IsIteration

/-! ### The points of a solve -/

/-- The signs at a point of a solve: no coordinate is negative and `tau` is positive; all
coordinates are positive if `alpha0` is below one. -/
structure Point.HasSigns {m n : ℕ} (w : Point K m n) (o : Options K) : Prop where
  nonneg : w.Nonneg
  tau_pos : 0 < w.tau
  positive : o.alpha0 < 1 → w.Positive

/-- **What all points of a solve have in common**: their residuals are those of the blind start
times their complementarity, and they have the signs of a point of a solve. -/
structure OnPath (p : Problem K) (o : Options K) (w : Point K p.m p.n) : Prop
    extends w.HasSigns o where
  scales : Point.Scales p (.blindStart p.m p.n) w w.mu

theorem onPath_blindStart (p : Problem K) (o : Options K) :
    OnPath p o (.blindStart p.m p.n) where
  scales := by
    rw [Point.mu_blindStart]
    exact ⟨(one_smul K _).symm, (one_smul K _).symm, (one_mul _).symm⟩
  nonneg := (Point.positive_blindStart p.m p.n).interior.nonneg
  tau_pos := one_pos
  positive _ := Point.positive_blindStart p.m p.n

/-- The step of the induction along a path. -/
theorem OnPath.step {p : Problem K} {o : Options K} {w d : Point K p.m p.n} {alpha : K}
    (hw : OnPath p o w) (h : IsIteration p o w d alpha) : OnPath p o (w.move d alpha) where
  scales := by
    obtain ⟨t, -, -, hmu, hscales⟩ := h.exists_factor
    rw [hmu]
    exact hscales _ _ hw.scales
  nonneg := h.nonneg
  tau_pos := h.tau_pos
  positive hlt := h.positive hlt (hw.positive hlt)

section Paths

variable {p : Problem K} {o : Options K} {as : List (Advance K)} {it : Iterate K} {a : Advance K}

/-- Every step that is computed at a point of a solve lies in `(0, 1]`, accepted or not. -/
theorem OnPath.step_mem {w : Point K p.m p.n} (hw : OnPath p o w) {d : Direction K} {alpha : K}
    (hd : (Kernels.standard p o).direction w.iterate = .ok d)
    (halpha : (Kernels.standard p o).stepLength w.iterate d = .ok alpha) :
    0 < alpha ∧ alpha ≤ 1 := by
  rcases searchDirection_cases o.backend hw.nonneg o.beta with
    ⟨pred, alpha', d', hd', hinterior, -, hdirection⟩ | ⟨b, hb, -⟩
  · obtain rfl := Except.ok.inj (hd.symm.trans hd')
    obtain ⟨alpha₂, halpha₂, hstep⟩ := stepLength_exact .on hw.nonneg d' o.alpha0_pos
    obtain rfl := Except.ok.inj (halpha.symm.trans halpha₂)
    exact ⟨hdirection.step_pos o.beta_pos.le hinterior hstep, hstep.le_one⟩
  · cases hd.symm.trans hb

/-- An iteration that is accepted on a path. -/
theorem OnPath.exists_iteration {w : Point K p.m p.n} (hw : OnPath p o w)
    (ha : (Kernels.standard p o).advance w.iterate = .ok a) :
    ∃ d alpha, IsIteration p o w d alpha ∧
      a = ⟨alpha, (w.move d alpha).iterate, (w.move d alpha).indicators p⟩ := by
  rcases advance_cases p o hw.nonneg with ⟨d, alpha, hd, h⟩ | ⟨b, hb, -⟩
  · rw [hd] at ha
    exact ⟨d, alpha, h, (Except.ok.inj ha).symm⟩
  · rw [hb] at ha
    cases ha

/-- **The points of a solve.** -/
theorem Kernels.Path.onPath
    (h : (Kernels.standard p o).Path (.blindStart p.m p.n) as it) :
    ∃ w : Point K p.m p.n, it = w.iterate ∧ OnPath p o w := by
  refine h.invariant (P := fun it => ∃ w : Point K p.m p.n, it = w.iterate ∧ OnPath p o w) ?_ ?_
  · exact ⟨.blindStart p.m p.n, (Point.iterate_blindStart p.m p.n).symm, onPath_blindStart p o⟩
  · rintro it a ⟨w, rfl, hw⟩ ha
    obtain ⟨d, alpha, hiteration, rfl⟩ := hw.exists_iteration ha
    exact ⟨w.move d alpha, rfl, hw.step hiteration⟩

end Paths

end SelfDual
