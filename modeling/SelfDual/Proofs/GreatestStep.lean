import SelfDual.Proofs.RatioTest
/-!
**The computed step is the greatest one.**

A step along a direction may take the fraction `alpha0` of every coordinate and no more.  Of the
steps that keep to this the ratio test computes the greatest, but for one reserve: where some part
of the point has no coordinate that decreases, the step does not exceed `alpha0`, however far the
other parts could go.

Main definitions:

* `Point.cap` — the longest step that is ever made along a direction.

Main results:

* `RatioStep.le_iff` — what does not exceed the step that some coordinates allow;
* `le_stepLength_iff` — **what does not exceed the computed step**;
* `stepLength_isGreatest` — **the computed step is the greatest** that keeps a part of every
  coordinate.
-/

set_option autoImplicit false

namespace SelfDual

variable {K : Type} [ExactField K] {m n : ℕ}

/-- A step does not exceed the one that some coordinates allow exactly if it leaves the fraction
`1 - alpha0` of each of them and, where none of them decreases, does not exceed `alpha0`. -/
theorem RatioStep.le_iff {ι : Type} {v dv : ι → K} {alpha0 r t : K}
    (h : RatioStep v dv alpha0 r) (halpha0 : 0 ≤ alpha0) (hv : ∀ i, 0 ≤ v i) (ht : 0 ≤ t) :
    t ≤ r ↔ (∀ i, (1 - alpha0) * v i ≤ v i + t * dv i) ∧ ((∀ i, 0 ≤ dv i) → t ≤ alpha0) := by
  constructor
  · intro hle
    refine ⟨fun i => h.keeps halpha0 (hv i) ht hle, fun hfree => ?_⟩
    cases h with
    | free increases eq => exact hle.trans_eq eq
    | blocked i decreases eq least => exact absurd (hfree i) decreases.not_ge
  · rintro ⟨hkeeps, hfree⟩
    cases h with
    | free increases eq => exact (hfree increases).trans_eq eq.symm
    | blocked i decreases eq least =>
      -- The coordinate with the smallest ratio is the one that stops the step.
      have hi : (1 - alpha0) * v i ≤ v i + t * dv i := hkeeps i
      rw [eq, ← mul_div_assoc, le_div_iff₀ (neg_pos.2 decreases)]
      linarith

namespace Point

variable {w d : Point K m n} {alpha0 t : K}

/-- The longest step that is ever made along a direction: one if each of the four parts has a
coordinate that decreases, and `alpha0` otherwise. -/
def cap (d : Point K m n) (alpha0 : K) : K :=
  if (∃ i, d.x i < 0) ∧ (∃ i, d.z i < 0) ∧ d.tau < 0 ∧ d.kappa < 0 then 1 else alpha0

/-- The reserve is made for each part on its own. -/
theorem le_cap_iff (hle : alpha0 ≤ 1) :
    t ≤ d.cap alpha0 ↔ t ≤ 1 ∧ ((∀ i, 0 ≤ d.x i) → t ≤ alpha0) ∧
      ((∀ i, 0 ≤ d.z i) → t ≤ alpha0) ∧ (0 ≤ d.tau → t ≤ alpha0) ∧
      (0 ≤ d.kappa → t ≤ alpha0) := by
  rw [cap]
  split
  case isTrue hall =>
    obtain ⟨⟨i, hx⟩, ⟨j, hz⟩, htau, hkappa⟩ := hall
    constructor
    · intro ht
      exact ⟨ht, fun h => absurd (h i) hx.not_ge, fun h => absurd (h j) hz.not_ge,
        fun h => absurd h htau.not_ge, fun h => absurd h hkappa.not_ge⟩
    · exact And.left
  case isFalse hsome =>
    constructor
    · intro ht
      exact ⟨ht.trans hle, fun _ => ht, fun _ => ht, fun _ => ht, fun _ => ht⟩
    · rintro ⟨-, hx, hz, htau, hkappa⟩
      by_contra ht
      -- A step that is longer needs that every part has a coordinate that decreases.
      refine hsome ⟨?_, ?_, not_le.1 (mt htau ht), not_le.1 (mt hkappa ht)⟩
      · simpa using mt hx ht
      · simpa using mt hz ht

/-- Where no coordinate decreases, the longest step is `alpha0`. -/
theorem cap_of_nonneg (htau : 0 ≤ d.tau) : d.cap alpha0 = alpha0 := by
  rw [cap, if_neg]
  rintro ⟨-, -, h, -⟩
  exact h.not_ge htau

theorem keeps_move_iff : w.Keeps (w.move d t) (1 - alpha0) ↔
    (∀ i, (1 - alpha0) * w.x i ≤ w.x i + t * d.x i) ∧
    (∀ i, (1 - alpha0) * w.z i ≤ w.z i + t * d.z i) ∧
    (1 - alpha0) * w.tau ≤ w.tau + t * d.tau ∧
    (1 - alpha0) * w.kappa ≤ w.kappa + t * d.kappa := by
  constructor
  · rintro ⟨hx, hz, htau, hkappa⟩
    exact ⟨hx, hz, htau, hkappa⟩
  · rintro ⟨hx, hz, htau, hkappa⟩
    exact ⟨hx, hz, htau, hkappa⟩

/-- Where no coordinate decreases, a step of length `alpha0` leaves more than the fraction. -/
theorem keeps_move_of_nonneg (hw : w.Nonneg) (halpha0 : 0 ≤ alpha0) (hx : ∀ i, 0 ≤ d.x i)
    (hz : ∀ i, 0 ≤ d.z i) (htau : 0 ≤ d.tau) (hkappa : 0 ≤ d.kappa) :
    w.Keeps (w.move d alpha0) (1 - alpha0) := by
  have hkeeps {v dv : K} (hv : 0 ≤ v) (hdv : 0 ≤ dv) : (1 - alpha0) * v ≤ v + alpha0 * dv := by
    have hpart : 0 ≤ alpha0 * v := mul_nonneg halpha0 hv
    have hgain : 0 ≤ alpha0 * dv := mul_nonneg halpha0 hdv
    linarith
  exact ⟨fun i => hkeeps (hw.x i) (hx i), fun i => hkeeps (hw.z i) (hz i), hkeeps hw.tau htau,
    hkeeps hw.kappa hkappa⟩

end Point

/-- **What does not exceed the computed step**: the steps within the reserve that leave the fraction
`1 - alpha0` of every coordinate. -/
theorem le_stepLength_iff {traps : Traps} {w d : Point K m n} {alpha0 alpha t : K}
    (halpha : stepLength traps w.iterate d.direction alpha0 = .ok alpha) (hw : w.Nonneg)
    (hpos : 0 < alpha0) (hle : alpha0 ≤ 1) (ht : 0 ≤ t) :
    t ≤ alpha ↔ t ≤ d.cap alpha0 ∧ w.Keeps (w.move d t) (1 - alpha0) := by
  obtain ⟨rx, rz, rtau, rkappa, hmin, hx, hz, htau, hkappa⟩ := exists_ratioSteps traps w d alpha0
  obtain rfl := Except.ok.inj (halpha.symm.trans hmin)
  rw [le_min_iff, le_min_iff, le_min_iff, le_min_iff, hx.le_iff hpos.le hw.x ht,
    hz.le_iff hpos.le hw.z ht, htau.le_iff hpos.le (fun _ => hw.tau) ht,
    hkappa.le_iff hpos.le (fun _ => hw.kappa) ht, Point.le_cap_iff hle, Point.keeps_move_iff]
  simp only [forall_const]
  tauto

/-- **The computed step is the greatest** of the steps within the reserve that leave the fraction
`1 - alpha0` of every coordinate of a positive point.  So it lies in `(0, 1]`, leaves no coordinate
negative, and leaves all of them positive if `alpha0` is below one; where no coordinate decreases,
it is `alpha0` itself. -/
theorem stepLength_isGreatest (traps : Traps) {w : Point K m n} (hw : w.Positive)
    (d : Point K m n) {alpha0 : K} (hpos : 0 < alpha0) (hle : alpha0 ≤ 1) :
    ∃ alpha, stepLength traps w.iterate d.direction alpha0 = .ok alpha ∧
      IsGreatest {t | 0 < t ∧ t ≤ d.cap alpha0 ∧ w.Keeps (w.move d t) (1 - alpha0)} alpha ∧
      0 < alpha ∧ alpha ≤ 1 ∧
      w.iterate.move traps d.direction alpha = .ok (w.move d alpha).iterate ∧
      (w.move d alpha).Nonneg ∧ (alpha0 < 1 → (w.move d alpha).Positive) ∧
      ((∀ i, 0 ≤ d.x i) → (∀ i, 0 ≤ d.z i) → 0 ≤ d.tau → 0 ≤ d.kappa → alpha = alpha0) := by
  have hnonneg : w.Nonneg := hw.interior.nonneg
  obtain ⟨alpha, halpha, hstep⟩ := stepLength_exact traps hnonneg d hpos
  have halpha_pos : 0 < alpha :=
    hstep.pos (hw.interior.unblocked fun h => absurd h hw.kappa.ne')
  have hiff : ∀ {t}, 0 ≤ t → (t ≤ alpha ↔ t ≤ d.cap alpha0 ∧ w.Keeps (w.move d t) (1 - alpha0)) :=
    le_stepLength_iff halpha hnonneg hpos hle
  obtain ⟨hcap, hkeeps⟩ := (hiff halpha_pos.le).1 le_rfl
  refine ⟨alpha, halpha, ⟨⟨halpha_pos, hcap, hkeeps⟩, ?_⟩, halpha_pos, hstep.le_one,
    Point.move_exact traps w d alpha, hkeeps.nonneg (sub_nonneg.2 hle) hnonneg,
    fun hlt => hkeeps.positive (sub_pos.2 hlt) hw, fun hx hz htau hkappa => ?_⟩
  · rintro t ⟨ht, hallowed⟩
    exact (hiff ht.le).2 hallowed
  · refine le_antisymm (hcap.trans_eq (Point.cap_of_nonneg htau)) ((hiff hpos.le).2 ⟨?_, ?_⟩)
    · exact (Point.cap_of_nonneg htau).ge
    · exact Point.keeps_move_of_nonneg hnonneg hpos.le hx hz htau hkappa

/-- Where all parts decrease, a step may exceed `alpha0`: a direction that takes a quarter of every
coordinate is followed to its end, although half of every coordinate is to be kept. -/
theorem stepLength_isGreatest_quarter :
    (Point.blindStart 1 1 : Point ℝ 1 1).Positive ∧
      stepLength .on (Point.blindStart 1 1 : Point ℝ 1 1).iterate
        (⟨fun _ => -1 / 4, 0, fun _ => -1 / 4, -1 / 4, -1 / 4⟩ : Point ℝ 1 1).direction (1 / 2) =
        .ok 1 := by
  have hw : (Point.blindStart 1 1 : Point ℝ 1 1).Positive := Point.positive_blindStart 1 1
  obtain ⟨alpha, halpha, ⟨-, hgreatest⟩, -, hle, -⟩ := stepLength_isGreatest .on hw
    (⟨fun _ => -1 / 4, 0, fun _ => -1 / 4, -1 / 4, -1 / 4⟩ : Point ℝ 1 1)
    (by norm_num : (0 : ℝ) < 1 / 2) (by norm_num)
  refine ⟨hw, ?_⟩
  rw [halpha]
  refine congrArg Except.ok (le_antisymm hle (hgreatest ⟨one_pos, ?_, ?_⟩))
  · rw [Point.cap, if_pos (by norm_num)]
  · rw [Point.keeps_move_iff]
    norm_num [Point.blindStart]

end SelfDual
