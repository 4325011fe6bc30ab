import SelfDual.Proofs.HomogeneousModel
import SelfDual.StepLength
/-!
**The ratio test.**

A step along a direction is limited by the coordinates that decrease: it may go a fraction of the
way to the first of them that reaches zero.  So a step keeps a part of every coordinate that is not
negative, and it has positive length unless a decreasing coordinate is at zero already.

Main definitions:

* `RatioStep` — the step that a family of coordinates allows;
* `Point.Nonneg`, `Point.Interior`, `Point.Positive` — points without negative coordinates, with
  positive ones except for `kappa`, and with positive ones;
* `Point.Keeps` — a part of every coordinate is kept;
* `Point.Unblocked` — no coordinate at zero decreases;
* `Point.IsStep` — what a step is good for.

Main results:

* `blockStep_exact`, `numberStep_exact` — these are the steps that are computed;
* `RatioStep.nonneg`, `RatioStep.pos`, `RatioStep.keeps` — what a step is good for;
* `exists_ratioSteps` — the computed step is the smallest that a part allows, one at most;
* `stepLength_exact` — **the computed step** exists, lies between zero and one, and keeps a part of
  every coordinate.
-/

set_option autoImplicit false

open Matrix

namespace SelfDual

variable {K : Type} [ExactField K] {m n : ℕ}

/-! ### The step that some coordinates allow -/

/-- The fraction `alpha0` of the step at which the first of some coordinates reaches zero; `alpha0`
itself if none of them decreases. -/
inductive RatioStep {ι : Type} (v dv : ι → K) (alpha0 r : K) : Prop where
  | free (increases : ∀ i, 0 ≤ dv i) (eq : r = alpha0)
  | blocked (i : ι) (decreases : dv i < 0) (eq : r = alpha0 * (v i / -dv i))
      (least : ∀ j, dv j < 0 → v i / -dv i ≤ v j / -dv j)

namespace RatioStep

variable {ι : Type} {v dv : ι → K} {alpha0 r : K}

theorem nonneg (h : RatioStep v dv alpha0 r) (halpha0 : 0 ≤ alpha0) (hv : ∀ i, 0 ≤ v i) :
    0 ≤ r := by
  cases h with
  | free increases eq => exact eq ▸ halpha0
  | blocked i decreases eq least =>
    have hquotient : 0 ≤ v i / -dv i := div_nonneg (hv i) (neg_pos.2 decreases).le
    exact eq ▸ mul_nonneg halpha0 hquotient

/-- The step is positive unless a coordinate at zero decreases. -/
theorem pos (h : RatioStep v dv alpha0 r) (halpha0 : 0 < alpha0) (hv : ∀ i, dv i < 0 → 0 < v i) :
    0 < r := by
  cases h with
  | free increases eq => exact eq ▸ halpha0
  | blocked i decreases eq least =>
    have hquotient : 0 < v i / -dv i := div_pos (hv i decreases) (neg_pos.2 decreases)
    exact eq ▸ mul_pos halpha0 hquotient

/-- A step no longer than this one leaves the fraction `1 - alpha0` of every coordinate. -/
theorem keeps (h : RatioStep v dv alpha0 r) (halpha0 : 0 ≤ alpha0) {i : ι} (hv : 0 ≤ v i)
    {alpha : K} (hnonneg : 0 ≤ alpha) (hle : alpha ≤ r) :
    (1 - alpha0) * v i ≤ v i + alpha * dv i := by
  rcases le_or_gt 0 (dv i) with hdv | hdv
  · have hgain : 0 ≤ alpha * dv i := mul_nonneg hnonneg hdv
    have hloss : 0 ≤ alpha0 * v i := mul_nonneg halpha0 hv
    linarith
  -- A coordinate that decreases has a ratio, which the step does not exceed.
  · cases h with
    | free increases eq => exact absurd (increases i) hdv.not_ge
    | blocked j decreases eq least =>
      have hratio : alpha ≤ alpha0 * (v i / -dv i) :=
        hle.trans (eq ▸ mul_le_mul_of_nonneg_left (least i hdv) halpha0)
      rw [← mul_div_assoc, le_div_iff₀ (neg_pos.2 hdv)] at hratio
      linarith

end RatioStep

/-! ### The step of a number -/

/-- The step that is computed for a number. -/
theorem numberStep_exact (v dv alpha0 : K) :
    RatioStep (fun _ : Unit => v) (fun _ => dv) alpha0 (numberStep v dv alpha0) := by
  rw [numberStep]
  split
  case isTrue h => exact .blocked () h (mul_div_assoc alpha0 v (-dv)) fun _ _ => le_rfl
  case isFalse h => exact .free (fun _ => not_lt.1 h) rfl

/-! ### The step of a vector -/

namespace Tensor

theorem minimumOf_exact (a : K) (bs : List K) :
    minimumOf a bs ∈ a :: bs ∧ ∀ b ∈ a :: bs, minimumOf a bs ≤ b := by
  induction bs generalizing a with
  | nil => simp [minimumOf]
  | cons b bs ih =>
    -- The first entry stands for the smallest of those that have been seen.
    have hstep : minimumOf a (b :: bs) = minimumOf (min b a) bs := by
      simp [minimumOf, keepNaN]
    obtain ⟨hmem, hle⟩ := ih (min b a)
    have hfirst : minimumOf (min b a) bs ≤ min b a := hle _ List.mem_cons_self
    rw [hstep]
    constructor
    · rcases List.mem_cons.1 hmem with heq | htail
      · rcases min_choice b a with hb | ha
        · rw [heq, hb]
          exact List.mem_cons_of_mem _ List.mem_cons_self
        · rw [heq, ha]
          exact List.mem_cons_self
      · exact List.mem_cons_of_mem _ (List.mem_cons_of_mem _ htail)
    · intro c hc
      rcases List.mem_cons.1 hc with rfl | hc
      · exact hfirst.trans (min_le_right _ _)
      rcases List.mem_cons.1 hc with rfl | hc
      · exact hfirst.trans (min_le_left _ _)
      · exact hle c (List.mem_cons_of_mem _ hc)

/-- The smallest entry of a vector that has entries. -/
theorem minimum_vector (v : Fin n → K) (hn : 0 < n) :
    ∃ i, (ofVector v).minimum = .ok (v i) ∧ ∀ j, v i ≤ v j := by
  cases hv : List.ofFn v with
  | nil =>
    have hlen : (List.ofFn v).length = 0 := congrArg List.length hv
    rw [List.length_ofFn] at hlen
    omega
  | cons a bs =>
    obtain ⟨hmem, hle⟩ := minimumOf_exact a bs
    rw [← hv, List.mem_ofFn] at hmem
    obtain ⟨i, hi⟩ := hmem
    refine ⟨i, by rw [minimum, toList_ofVector, hv, hi], fun j => hi ▸ hle _ ?_⟩
    rw [← hv, List.mem_ofFn]
    exact ⟨j, rfl⟩

/-- The coordinates that a vector decreases. -/
def falling (dv : Fin n → K) : List (Fin n) := (List.finRange n).filter fun i => dv i < 0

theorem mem_falling {dv : Fin n → K} {i : Fin n} : i ∈ falling dv ↔ dv i < 0 := by
  simp [falling]

/-- The entries of a vector at the coordinates that another one decreases, as a vector. -/
theorem select_falling (v dv : Fin n → K) :
    (ofVector v).select [n] (fun k => decide ((ofVector dv).entry k < 0)) =
      .ok (ofVector fun k => v ((falling dv).get k)) := by
  have hself := select_self (ofVector v) fun k => decide ((ofVector dv).entry k < 0)
  have hfilter : (List.finRange n).filter ((fun k => decide ((ofVector dv).entry k < 0)) ∘ (↑)) =
      falling dv := by
    simp [falling, Function.comp_def]
  have hchosen : (chosen [n] fun k => decide ((ofVector dv).entry k < 0)).map (ofVector v).entry =
      (falling dv).map v := by
    rw [chosen, Shape.size_cons, Shape.size_nil, mul_one, ← List.map_coe_finRange_eq_range,
      List.filter_map, List.map_map, hfilter]
    exact List.map_congr_left fun i _ => entry_ofVector v i
  rw [shape_ofVector, hchosen] at hself
  rw [hself]
  refine congrArg Except.ok (eq_ofVector (by simp) fun k => ?_)
  rw [entry_ofList]
  simp

end Tensor

/-- Where some coordinate decreases, the step is the fraction of the smallest ratio. -/
theorem blockStep_of_falling (traps : Traps) (v : Fin n → K) {dv : Fin n → K} (alpha0 : K)
    (h : (Tensor.ofVector dv).any (· < 0) = true) :
    blockStep traps (.ofVector v) (.ofVector dv) alpha0 =
      ((Tensor.ofVector fun k => v ((Tensor.falling dv).get k) /
        -dv ((Tensor.falling dv).get k)).minimum >>= fun ratio => .ok (alpha0 * ratio)) := by
  have hne : ∀ k, (-fun k => dv ((Tensor.falling dv).get k)) k ≠ 0 :=
    fun k => (neg_pos.2 (Tensor.mem_falling.1 (List.get_mem _ k))).ne'
  have hproduct : ∀ ratio : K, traps.combine .multiply alpha0 ratio = .ok (alpha0 * ratio) :=
    fun ratio => traps.combine_of_defined alpha0 (Operation.defined_of_ne (by decide) ratio)
  rw [blockStep, if_pos h, Tensor.shape_ofVector]
  dsimp only
  rw [Tensor.select_falling, Tensor.select_falling, ok_bind, ok_bind, Tensor.neg_vector,
    Tensor.div_vectors traps _ hne, ok_bind]
  exact bind_congr hproduct

/-- The step that is computed for a vector. -/
theorem blockStep_exact (traps : Traps) (v dv : Fin n → K) (alpha0 : K) :
    ∃ r, blockStep traps (.ofVector v) (.ofVector dv) alpha0 = .ok r ∧
      RatioStep v dv alpha0 r := by
  by_cases hany : (Tensor.ofVector dv).any (· < 0) = true
  · obtain ⟨first, hfirst⟩ := (Tensor.any_ofVector dv _).1 hany
    have hpos : 0 < (Tensor.falling dv).length :=
      List.length_pos_of_mem (Tensor.mem_falling.2 (of_decide_eq_true hfirst))
    obtain ⟨k, hmin, hle⟩ := Tensor.minimum_vector
      (fun k => v ((Tensor.falling dv).get k) / -dv ((Tensor.falling dv).get k)) hpos
    have hfalls : dv ((Tensor.falling dv).get k) < 0 := Tensor.mem_falling.1 (List.get_mem _ k)
    refine ⟨_, by rw [blockStep_of_falling traps v alpha0 hany, hmin, ok_bind],
      .blocked ((Tensor.falling dv).get k) hfalls rfl fun j hj => ?_⟩
    obtain ⟨l, rfl⟩ := List.get_of_mem (Tensor.mem_falling.2 hj)
    exact hle l
  · refine ⟨alpha0, by rw [blockStep, if_neg hany]; rfl, .free (fun i => ?_) rfl⟩
    by_contra hi
    exact hany ((Tensor.any_ofVector dv _).2 ⟨i, decide_eq_true (not_le.1 hi)⟩)

/-! ### The step of a point -/

namespace Point

/-- No coordinate is negative. -/
structure Nonneg (w : Point K m n) : Prop where
  x : ∀ i, 0 ≤ w.x i
  z : ∀ i, 0 ≤ w.z i
  tau : 0 ≤ w.tau
  kappa : 0 ≤ w.kappa

/-- Every coordinate is positive, but for `kappa`, which may be zero. -/
structure Interior (w : Point K m n) : Prop where
  x : ∀ i, 0 < w.x i
  z : ∀ i, 0 < w.z i
  tau : 0 < w.tau
  kappa : 0 ≤ w.kappa

/-- Every coordinate is positive. -/
structure Positive (w : Point K m n) : Prop where
  x : ∀ i, 0 < w.x i
  z : ∀ i, 0 < w.z i
  tau : 0 < w.tau
  kappa : 0 < w.kappa

/-- The second point has at least the fraction `rho` of every coordinate of the first. -/
structure Keeps (w w' : Point K m n) (rho : K) : Prop where
  x : ∀ i, rho * w.x i ≤ w'.x i
  z : ∀ i, rho * w.z i ≤ w'.z i
  tau : rho * w.tau ≤ w'.tau
  kappa : rho * w.kappa ≤ w'.kappa

/-- No coordinate at zero decreases. -/
structure Unblocked (w d : Point K m n) : Prop where
  x : ∀ i, d.x i < 0 → 0 < w.x i
  z : ∀ i, d.z i < 0 → 0 < w.z i
  tau : d.tau < 0 → 0 < w.tau
  kappa : d.kappa < 0 → 0 < w.kappa

variable {w w' d : Point K m n} {rho : K}

theorem Nonneg.products_nonneg (h : w.Nonneg) : 0 ≤ w.products := by
  have hsum : 0 ≤ w.x ⬝ᵥ w.z := Finset.sum_nonneg fun i _ => mul_nonneg (h.x i) (h.z i)
  exact add_nonneg hsum (mul_nonneg h.tau h.kappa)

theorem Nonneg.mu_nonneg (h : w.Nonneg) : 0 ≤ w.mu :=
  div_nonneg h.products_nonneg (by positivity)

theorem Positive.interior (h : w.Positive) : w.Interior := ⟨h.x, h.z, h.tau, h.kappa.le⟩

theorem Interior.nonneg (h : w.Interior) : w.Nonneg where
  x i := (h.x i).le
  z i := (h.z i).le
  tau := h.tau.le
  kappa := h.kappa

theorem Interior.ratio_pos (h : w.Interior) (i : Fin n) : 0 < w.x i / w.z i :=
  div_pos (h.x i) (h.z i)

/-- In the interior the complementarity is positive, if there are variables. -/
theorem Interior.mu_pos (h : w.Interior) (hn : 0 < n) : 0 < w.mu := by
  have hsum : 0 < w.x ⬝ᵥ w.z :=
    Finset.sum_pos (fun i _ => mul_pos (h.x i) (h.z i)) ⟨⟨0, hn⟩, Finset.mem_univ _⟩
  have hnumber : 0 ≤ w.tau * w.kappa := mul_nonneg h.tau.le h.kappa
  exact div_pos (add_pos_of_pos_of_nonneg hsum hnumber) (by positivity)

/-- In the interior only `kappa` can stop a direction. -/
theorem Interior.unblocked (h : w.Interior) (hkappa : w.kappa = 0 → 0 ≤ d.kappa) :
    w.Unblocked d where
  x i _ := h.x i
  z i _ := h.z i
  tau _ := h.tau
  kappa hd := lt_of_le_of_ne h.kappa fun h0 => (hkappa h0.symm).not_gt hd

theorem positive_blindStart (m n : ℕ) : (blindStart m n : Point K m n).Positive where
  x _ := one_pos
  z _ := one_pos
  tau := one_pos
  kappa := one_pos

theorem Keeps.nonneg (h : w.Keeps w' rho) (hrho : 0 ≤ rho) (hw : w.Nonneg) : w'.Nonneg where
  x i := (mul_nonneg hrho (hw.x i)).trans (h.x i)
  z i := (mul_nonneg hrho (hw.z i)).trans (h.z i)
  tau := (mul_nonneg hrho hw.tau).trans h.tau
  kappa := (mul_nonneg hrho hw.kappa).trans h.kappa

theorem Keeps.positive (h : w.Keeps w' rho) (hrho : 0 < rho) (hw : w.Positive) :
    w'.Positive where
  x i := (mul_pos hrho (hw.x i)).trans_le (h.x i)
  z i := (mul_pos hrho (hw.z i)).trans_le (h.z i)
  tau := (mul_pos hrho hw.tau).trans_le h.tau
  kappa := (mul_pos hrho hw.kappa).trans_le h.kappa

/-- What a step of length `alpha` along `d` is good for. -/
structure IsStep (w d : Point K m n) (alpha0 alpha : K) : Prop where
  nonneg : 0 ≤ alpha
  le_one : alpha ≤ 1
  keeps : w.Keeps (w.move d alpha) (1 - alpha0)
  pos : w.Unblocked d → 0 < alpha

end Point

/-- The step that is computed is the smallest of one and the steps that the parts allow. -/
theorem exists_ratioSteps (traps : Traps) (w d : Point K m n) (alpha0 : K) :
    ∃ rx rz rtau rkappa, stepLength traps w.iterate d.direction alpha0 =
        .ok (min (min (min (min 1 rx) rz) rtau) rkappa) ∧
      RatioStep w.x d.x alpha0 rx ∧ RatioStep w.z d.z alpha0 rz ∧
      RatioStep (fun _ : Unit => w.tau) (fun _ => d.tau) alpha0 rtau ∧
      RatioStep (fun _ : Unit => w.kappa) (fun _ => d.kappa) alpha0 rkappa := by
  obtain ⟨rx, hblock_x, hx⟩ := blockStep_exact traps w.x d.x alpha0
  obtain ⟨rz, hblock_z, hz⟩ := blockStep_exact traps w.z d.z alpha0
  refine ⟨rx, rz, numberStep w.tau d.tau alpha0, numberStep w.kappa d.kappa alpha0, ?_, hx, hz,
    numberStep_exact _ _ _, numberStep_exact _ _ _⟩
  simp [stepLength, hblock_x, hblock_z, pure, Except.pure]

/-- **The step that is computed** from a point without negative coordinates. -/
theorem stepLength_exact (traps : Traps) {w : Point K m n} (hw : w.Nonneg) (d : Point K m n)
    {alpha0 : K} (halpha0 : 0 < alpha0) :
    ∃ alpha, stepLength traps w.iterate d.direction alpha0 = .ok alpha ∧
      w.IsStep d alpha0 alpha := by
  obtain ⟨rx, rz, rtau, rkappa, halpha, hx, hz, htau, hkappa⟩ :=
    exists_ratioSteps traps w d alpha0
  let alpha := min (min (min (min 1 rx) rz) rtau) rkappa
  have hle : alpha ≤ 1 ∧ alpha ≤ rx ∧ alpha ≤ rz ∧ alpha ≤ rtau ∧ alpha ≤ rkappa := by
    simp [alpha]
  obtain ⟨hle_one, hle_x, hle_z, hle_tau, hle_kappa⟩ := hle
  have hnonneg : 0 ≤ alpha := by
    have hrx : 0 ≤ rx := hx.nonneg halpha0.le hw.x
    have hrz : 0 ≤ rz := hz.nonneg halpha0.le hw.z
    have hrtau : 0 ≤ rtau := htau.nonneg halpha0.le fun _ => hw.tau
    have hrkappa : 0 ≤ rkappa := hkappa.nonneg halpha0.le fun _ => hw.kappa
    simp [alpha, hrx, hrz, hrtau, hrkappa]
  refine ⟨alpha, halpha, hnonneg, hle_one, ⟨?_, ?_, ?_, ?_⟩, ?_⟩
  · exact fun i => hx.keeps halpha0.le (hw.x i) hnonneg hle_x
  · exact fun i => hz.keeps halpha0.le (hw.z i) hnonneg hle_z
  · exact htau.keeps (i := ()) halpha0.le hw.tau hnonneg hle_tau
  · exact hkappa.keeps (i := ()) halpha0.le hw.kappa hnonneg hle_kappa
  · intro hfree
    have hrx : 0 < rx := hx.pos halpha0 hfree.x
    have hrz : 0 < rz := hz.pos halpha0 hfree.z
    have hrtau : 0 < rtau := htau.pos halpha0 fun _ => hfree.tau
    have hrkappa : 0 < rkappa := hkappa.pos halpha0 fun _ => hfree.kappa
    simp [alpha, hrx, hrz, hrtau, hrkappa]

end SelfDual
