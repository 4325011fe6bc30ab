import SelfDual.Proofs.Solves
/-!
**The points of a solve are bounded.**

The residuals along a solve are those of the blind start times a number, and the model is skew.
Paired with the blind start, a point therefore has its products with it determined, and these are
the sum of its coordinates, since all coordinates of the blind start are one.  So the sum of the
coordinates falls with the complementarity, and no coordinate ever exceeds a bound that depends on
the number of variables alone.

Main definitions:

* `Point.total` — the sum of the coordinates that have signs;
* `Point.Balanced` — the sum is determined by the complementarity, which is at most one;
* `BalancedAt` — the same at an iterate, with its residuals as they are computed and the bounds
  that follow.

Main results:

* `Point.cross_of_scales` — the products of a direction with the blind start;
* `IsIteration.balanced` — **an iteration keeps the balance**;
* `Kernels.Path.balanced` — so does a path of any length;
* `coordinates_bounded` — **no coordinate exceeds `2 (n + 1)`**.
-/

set_option autoImplicit false

open Matrix

namespace SelfDual

variable {K : Type} [ExactField K]

/-! ### The sum of the coordinates -/

namespace Point

section Total

variable {m n : ℕ}

/-- The sum of the coordinates that have signs. -/
def total (w : Point K m n) : K := ∑ i, w.x i + ∑ i, w.z i + w.tau + w.kappa

/-- The products of a point with the blind start are its coordinates. -/
theorem cross_blindStart (w : Point K m n) : (blindStart m n).cross w = w.total := by
  simp only [cross, blindStart, one_dotProduct, dotProduct_one, one_mul, mul_one, total]
  ring

theorem total_blindStart (m n : ℕ) : (blindStart m n : Point K m n).total = 2 * (n + 1) := by
  rw [← cross_blindStart, cross_self, products_blindStart]

theorem total_move (w d : Point K m n) (alpha : K) :
    (w.move d alpha).total = w.total + alpha * d.total := by
  simp only [total, move, Pi.add_apply, Pi.smul_apply, smul_eq_mul, Finset.sum_add_distrib,
    ← Finset.mul_sum]
  ring

end Total

/-! ### A bilinear identity -/

section Cross

variable {p : Problem K} {v w d : Point K p.m p.n} {theta eta : K}

/-- **The products of a direction with the point that all residuals come from.**  The residuals of
`w` are those of `v` times a number other than zero; `d` removes a fraction of them and the same
fraction of the products, to first order. -/
theorem cross_of_scales (hw : Scales p v w theta) (htheta : theta ≠ 0) (hd : Scales p w d (-eta))
    (hcross : w.cross d = -eta * w.products) : v.cross d = -eta * theta * v.products := by
  -- The direction is paired to nothing with the residuals of `w`, hence with those of `v`.
  have hwd : w.form p d = eta * w.products := by
    rw [form_of_scales hd, form_self]
    ring
  have hdw : d.form p w = 0 := by
    have hskew := form_add_form p w d
    rw [hcross, hwd] at hskew
    linarith
  have hdv : d.form p v = 0 := by
    rw [form_of_scales hw] at hdw
    exact (mul_eq_zero.1 hdw).resolve_left htheta
  have hvd : v.form p d = eta * theta * v.products := by
    rw [form_of_scales hd, form_of_scales hw, form_self]
    ring
  have hskew := form_add_form p v d
  rw [hvd, hdv] at hskew
  linarith

end Cross

/-! ### Balance -/

section Balanced

variable {m n : ℕ} {w : Point K m n}

/-- **Balance**: the sum of the coordinates is determined by the complementarity, which is at most
one. -/
structure Balanced (w : Point K m n) : Prop where
  total : w.total = (n + 1) * (1 + w.mu)
  mu_le_one : w.mu ≤ 1

theorem balanced_blindStart (m n : ℕ) : (blindStart m n : Point K m n).Balanced where
  total := by
    rw [total_blindStart, mu_blindStart]
    ring
  mu_le_one := (mu_blindStart m n).le

/-- No coordinate exceeds a number. -/
structure AtMost (w : Point K m n) (bound : K) : Prop where
  x : ∀ i, w.x i ≤ bound
  z : ∀ i, w.z i ≤ bound
  tau : w.tau ≤ bound
  kappa : w.kappa ≤ bound

/-- A point without negative coordinates has none that exceeds their sum. -/
theorem Nonneg.atMost_total (h : w.Nonneg) : w.AtMost w.total := by
  have hx : 0 ≤ ∑ i, w.x i := Finset.sum_nonneg fun i _ => h.x i
  have hz : 0 ≤ ∑ i, w.z i := Finset.sum_nonneg fun i _ => h.z i
  have htau := h.tau
  have hkappa := h.kappa
  constructor
  case x =>
    intro i
    have hi : w.x i ≤ ∑ i, w.x i := Finset.single_le_sum (fun i _ => h.x i) (Finset.mem_univ i)
    rw [total]
    linarith
  case z =>
    intro i
    have hi : w.z i ≤ ∑ i, w.z i := Finset.single_le_sum (fun i _ => h.z i) (Finset.mem_univ i)
    rw [total]
    linarith
  case tau =>
    rw [total]
    linarith
  case kappa =>
    rw [total]
    linarith

theorem AtMost.mono {a b : K} (h : w.AtMost a) (hab : a ≤ b) : w.AtMost b :=
  ⟨fun i => (h.x i).trans hab, fun i => (h.z i).trans hab, h.tau.trans hab, h.kappa.trans hab⟩

theorem Balanced.total_le (h : w.Balanced) : w.total ≤ 2 * (n + 1) := by
  have hcount : (0 : K) ≤ n + 1 := by positivity
  calc w.total = (n + 1) * (1 + w.mu) := h.total
    _ ≤ (n + 1) * (1 + 1) := mul_le_mul_of_nonneg_left (by linarith [h.mu_le_one]) hcount
    _ = 2 * (n + 1) := by ring

/-- **The bound of a balanced point.** -/
theorem Balanced.atMost (h : w.Balanced) (hw : w.Nonneg) : w.AtMost (2 * (n + 1)) :=
  hw.atMost_total.mono h.total_le

end Balanced

end Point

/-! ### Along a solve -/

section Paths

variable {p : Problem K} {o : Options K} {w d : Point K p.m p.n} {alpha : K}

/-- The sum of the coordinates after a step along a search direction. -/
theorem IsSearchDirection.total_move {beta alpha' : K} {pred : Point K p.m p.n}
    (h : IsSearchDirection p w beta pred alpha' d)
    (hw : Point.Scales p (.blindStart p.m p.n) w w.mu) (hmu : w.mu ≠ 0) :
    (w.move d alpha).total =
      w.total - alpha * (1 - centering beta alpha') * w.mu * (p.n + 1) := by
  have hcross := Point.cross_of_scales hw hmu h.corrector.scales h.corrector_cross
  rw [Point.cross_blindStart, Point.products_blindStart] at hcross
  rw [Point.total_move, hcross]
  ring

/-- **An iteration keeps the balance.** -/
theorem IsIteration.balanced (h : IsIteration p o w d alpha) (hpath : OnPath p o w)
    (hw : w.Balanced) : (w.move d alpha).Balanced where
  total := by
    obtain ⟨pred, alpha', hdirection⟩ := h.direction
    have hmu : w.mu ≠ 0 := (h.interior.mu_pos p.n_pos).ne'
    rw [hdirection.total_move hpath.scales hmu, hdirection.mu_move, hw.total]
    ring
  mu_le_one := h.mu_lt.le.trans hw.mu_le_one

/-- The points that a path reaches are balanced. -/
theorem Kernels.Path.balanced {as : List (Advance K)}
    (h : (Kernels.standard p o).Path (.blindStart p.m p.n) as w.iterate) : w.Balanced := by
  have hpath : ∃ v : Point K p.m p.n, w.iterate = v.iterate ∧ OnPath p o v ∧ v.Balanced := by
    refine h.invariant (P := fun it => ∃ v : Point K p.m p.n, it = v.iterate ∧ OnPath p o v ∧
      v.Balanced) ?_ ?_
    · exact ⟨.blindStart p.m p.n, (Point.iterate_blindStart p.m p.n).symm, onPath_blindStart p o,
        Point.balanced_blindStart p.m p.n⟩
    · rintro it a ⟨v, rfl, hv, hbalanced⟩ ha
      obtain ⟨d, alpha, hiteration, rfl⟩ := hv.exists_iteration ha
      exact ⟨v.move d alpha, rfl, hv.step hiteration, hiteration.balanced hv hbalanced⟩
  obtain ⟨v, hv, -, hbalanced⟩ := hpath
  rwa [Point.iterate_injective hv]

end Paths

/-! ### The bound -/

/-- **Balance at an iterate**: with `mu` of its residuals as they are computed, its coordinates add
up to `(n + 1) (1 + mu)`, and none of them exceeds a bound. -/
def BalancedAt (p : Problem K) (it : Iterate K) (bound : K) : Prop :=
  ∃ (w : Point K p.m p.n) (mu : K), it = w.iterate ∧
    (∀ traps, ∃ r, residuals traps p it = .ok r ∧ r.mu = mu) ∧
    ∑ i, w.x i + ∑ i, w.z i + w.tau + w.kappa = (p.n + 1) * (1 + mu) ∧ mu ≤ 1 ∧
    w.AtMost bound

theorem Point.Balanced.balancedAt {p : Problem K} {w : Point K p.m p.n} (h : w.Balanced)
    (hw : w.Nonneg) : BalancedAt p w.iterate (2 * (p.n + 1)) :=
  ⟨w, w.mu, rfl, fun traps => ⟨_, residuals_exact traps p w, rfl⟩, h.total, h.mu_le_one,
    h.atMost hw⟩

/-- **The points of a solve are bounded**, whatever the data and the length of the solve: the blind
start and every accepted point are balanced, so that no coordinate ever exceeds `2 (n + 1)`. -/
theorem coordinates_bounded (p : Problem K) (o : Options K) (callback : Option (Callback K))
    (clock : ℕ → K) :
    BalancedAt p (.blindStart p.m p.n) (2 * (p.n + 1)) ∧
      ∀ a ∈ (solve p o callback clock).advances, BalancedAt p a.point (2 * (p.n + 1)) := by
  obtain ⟨s, answer, w, hends⟩ := exists_solveEnds p o callback clock
  refine ⟨?_, fun a ha => ?_⟩
  · rw [← Point.iterate_blindStart]
    exact (Point.balanced_blindStart p.m p.n).balancedAt (onPath_blindStart p o).nonneg
  · obtain ⟨k, hk⟩ := List.getElem?_of_mem ha
    obtain ⟨it, hpath, hadvance⟩ := hends.path.exists_step hk
    obtain ⟨v, rfl, hv⟩ := hpath.onPath
    obtain ⟨d, alpha, hiteration, rfl⟩ := hv.exists_iteration hadvance
    exact (hiteration.balanced hv hpath.balanced).balancedAt (hv.step hiteration).nonneg

end SelfDual
