import SelfDual.Indicators
import SelfDual.Proofs.Vectors
/-!
**The homogeneous self-dual model.**

A point of the model and a change of it have parts of the same kinds, so both are taken here from
one type of points with vectors for their parts.  The residuals are linear in the point, and the
coefficients of the model are skew: paired with a second point, what the two directions of pairing
give is cancelled up to the products `x z` and `tau kappa`.  All laws of the method come from these
two facts.

Main definitions:

* `Problem.matrix`, `Problem.cost`, `Problem.target` — the data of a linear program;
* `Point`, `Point.iterate`, `Point.direction` — a point, as a point and as a direction;
* `Point.primal`, `Point.dual`, `Point.gap`, `Point.mu` — the residuals of a point;
* `Point.indicators` — its indicators;
* `Point.cross` — the products of two points, one taken to first order.

Main results:

* `residuals_exact`, `indicators_exact` — these are the residuals and the indicators that are
  computed;
* `Point.move_exact` — a point moved along a direction;
* `Point.form_add_form` — **the model is skew**;
* `Point.products_of_scales` — a change that removes a fraction of the residuals has its
  products determined.
-/

set_option autoImplicit false

open Matrix

namespace SelfDual

variable {K : Type} [ExactField K] {m n : ℕ}

/-! ### The data of a program -/

namespace Problem

/-- The matrix of the constraints. -/
def matrix (p : Problem K) : Matrix (Fin p.m) (Fin p.n) K := p.A.toMatrix p.m p.n

/-- The cost of the variables. -/
def cost (p : Problem K) : Fin p.n → K := p.c.toVector p.n

/-- The right-hand side of the constraints. -/
def target (p : Problem K) : Fin p.m → K := p.b.toVector p.m

theorem A_eq (p : Problem K) : p.A = .ofMatrix p.matrix :=
  (Tensor.ofMatrix_toMatrix p.shape_A).symm

theorem c_eq (p : Problem K) : p.c = .ofVector p.cost :=
  (Tensor.ofVector_toVector p.shape_c).symm

theorem b_eq (p : Problem K) : p.b = .ofVector p.target :=
  (Tensor.ofVector_toVector p.shape_b).symm

section OfMatrix

variable (A : Matrix (Fin m) (Fin n) K) (c : Fin n → K) (b : Fin m → K) (hn : 0 < n)

/-- The program with given data. -/
def ofMatrix : Problem K where
  m := m
  n := n
  c := .ofVector c
  A := .ofMatrix A
  b := .ofVector b
  n_pos := hn
  shape_c := rfl
  shape_A := rfl
  shape_b := rfl
  finite_c := Tensor.isFinite_exact _
  finite_A := Tensor.isFinite_exact _
  finite_b := Tensor.isFinite_exact _

@[simp] theorem matrix_ofMatrix : (ofMatrix A c b hn).matrix = A := Tensor.toMatrix_ofMatrix A

@[simp] theorem cost_ofMatrix : (ofMatrix A c b hn).cost = c := Tensor.toVector_ofVector c

@[simp] theorem target_ofMatrix : (ofMatrix A c b hn).target = b := Tensor.toVector_ofVector b

variable {A c b hn} in
theorem independent_ofMatrix :
    LinearIndependent K (ofMatrix A c b hn).matrix.row ↔ LinearIndependent K A.row := by
  rw [matrix_ofMatrix]
  rfl

end OfMatrix

end Problem

/-! ### Points -/

/-- A point of the model, or a change of one, with vectors for its parts. -/
@[ext]
structure Point (K : Type) (m n : ℕ) where
  x : Fin n → K
  y : Fin m → K
  z : Fin n → K
  tau : K
  kappa : K

namespace Point

/-- The point with tensors for its parts. -/
def iterate (w : Point K m n) : Iterate K :=
  ⟨.ofVector w.x, .ofVector w.y, .ofVector w.z, w.tau, w.kappa⟩

/-- The direction with tensors for its parts. -/
def direction (d : Point K m n) : Direction K :=
  ⟨.ofVector d.x, .ofVector d.y, .ofVector d.z, d.tau, d.kappa⟩

section Parts

variable {α : Type} (w : Point α m n)

@[simp] theorem iterate_x : w.iterate.x = .ofVector w.x := rfl

@[simp] theorem iterate_y : w.iterate.y = .ofVector w.y := rfl

@[simp] theorem iterate_z : w.iterate.z = .ofVector w.z := rfl

@[simp] theorem iterate_tau : w.iterate.tau = w.tau := rfl

@[simp] theorem iterate_kappa : w.iterate.kappa = w.kappa := rfl

@[simp] theorem direction_dx : w.direction.dx = .ofVector w.x := rfl

@[simp] theorem direction_dz : w.direction.dz = .ofVector w.z := rfl

@[simp] theorem direction_dtau : w.direction.dtau = w.tau := rfl

@[simp] theorem direction_dkappa : w.direction.dkappa = w.kappa := rfl

end Parts

/-- Different points are different iterates. -/
theorem iterate_injective : Function.Injective (iterate : Point K m n → Iterate K) := by
  rintro ⟨x, y, z, tau, kappa⟩ ⟨x', y', z', tau', kappa'⟩ h
  simp only [iterate, Iterate.mk.injEq] at h
  obtain ⟨hx, hy, hz, rfl, rfl⟩ := h
  rw [Tensor.ofVector_injective hx, Tensor.ofVector_injective hy, Tensor.ofVector_injective hz]

/-- The point that every solve starts from. -/
def blindStart (m n : ℕ) : Point K m n := ⟨1, 0, 1, 1, 1⟩

theorem iterate_blindStart (m n : ℕ) :
    (blindStart m n : Point K m n).iterate = Iterate.blindStart m n := by
  simp only [iterate, Iterate.blindStart, Tensor.full_vector]
  rfl

/-- The point moved by `alpha` along a direction. -/
def move (w d : Point K m n) (alpha : K) : Point K m n where
  x := w.x + alpha • d.x
  y := w.y + alpha • d.y
  z := w.z + alpha • d.z
  tau := w.tau + alpha * d.tau
  kappa := w.kappa + alpha * d.kappa

@[simp] theorem move_exact (traps : Traps) (w d : Point K m n) (alpha : K) :
    w.iterate.move traps d.direction alpha = .ok (w.move d alpha).iterate := by
  simp [Iterate.move, Iterate.shift, iterate, direction, move, pure, Except.pure]

/-- The solution at a point where `tau` is not zero. -/
theorem solution_exact (traps : Traps) {w : Point K m n} (h : w.tau ≠ 0) :
    w.iterate.solution traps = .ok (.ofVector (w.tau⁻¹ • w.x)) :=
  Tensor.div_vector_scalar traps w.x h

/-- The objective of the multipliers at a point. -/
theorem dot_target (traps : Traps) (p : Problem K) (w : Point K p.m p.n) :
    Tensor.dot traps p.b w.iterate.y = .ok (p.target ⬝ᵥ w.y) := by
  rw [p.b_eq]
  exact Tensor.dot_vectors traps _ _

@[simp] theorem isFinite_iterate (w : Point K m n) : w.iterate.isFinite = true := by
  simp [Iterate.isFinite]

/-! ### Residuals -/

section Residuals

variable (p : Problem K) (w d : Point K p.m p.n)

/-- The primal residual `b tau - A x`. -/
def primal : Fin p.m → K := w.tau • p.target - p.matrix *ᵥ w.x

/-- The dual residual `c tau - Aᵀ y - z`. -/
def dual : Fin p.n → K := w.tau • p.cost - p.matrixᵀ *ᵥ w.y - w.z

/-- The gap residual `kappa + c · x - b · y`. -/
def gap : K := w.kappa + p.cost ⬝ᵥ w.x - p.target ⬝ᵥ w.y

/-- The sum of all products. -/
def products (w : Point K m n) : K := w.x ⬝ᵥ w.z + w.tau * w.kappa

/-- The complementarity, the mean of all products. -/
def mu (w : Point K m n) : K := w.products / (n + 1)

/-- All residuals of a point. -/
def residuals : Residuals K := ⟨.ofVector (w.primal p), .ofVector (w.dual p), w.gap p, w.mu⟩

theorem primal_move (alpha : K) :
    (w.move d alpha).primal p = w.primal p + alpha • d.primal p := by
  simp only [primal, move, mulVec_add, mulVec_smul, add_smul, mul_smul, smul_sub]
  abel

theorem dual_move (alpha : K) : (w.move d alpha).dual p = w.dual p + alpha • d.dual p := by
  simp only [dual, move, mulVec_add, mulVec_smul, add_smul, mul_smul, smul_sub]
  abel

theorem gap_move (alpha : K) : (w.move d alpha).gap p = w.gap p + alpha * d.gap p := by
  simp only [gap, move, dotProduct_add, dotProduct_smul, smul_eq_mul]
  ring

/-- The number of products is not zero. -/
theorem count_ne_zero (n : ℕ) : (n : K) + 1 ≠ 0 := by positivity

theorem count_mul_mu (w : Point K m n) : ((n : K) + 1) * w.mu = w.products :=
  mul_div_cancel₀ _ (count_ne_zero n)

end Residuals

end Point

/-- **The residuals that are computed.** -/
@[simp] theorem residuals_exact (traps : Traps) (p : Problem K) (w : Point K p.m p.n) :
    residuals traps p w.iterate = .ok (w.residuals p) := by
  have hcount : (p.n : K) + 1 ≠ 0 := Point.count_ne_zero p.n
  simp [residuals, p.A_eq, p.b_eq, p.c_eq, Tensor.div_scalars, hcount,
    Point.residuals, Point.primal, Point.dual, Point.gap, Point.mu, Point.products, pure,
    Except.pure]

namespace Point

/-! ### The skew form -/

/-- The products of two points, taken to first order. -/
def cross (w d : Point K m n) : K :=
  w.x ⬝ᵥ d.z + d.x ⬝ᵥ w.z + (w.tau * d.kappa + d.tau * w.kappa)

theorem cross_self (w : Point K m n) : w.cross w = 2 * w.products := by
  rw [cross, products]
  ring

theorem products_move (w d : Point K m n) (alpha : K) :
    (w.move d alpha).products =
      w.products + alpha * w.cross d + alpha * alpha * d.products := by
  simp only [products, move, cross, add_dotProduct, dotProduct_add, smul_dotProduct,
    dotProduct_smul, smul_eq_mul]
  ring

section Form

variable (p : Problem K) (v w d : Point K p.m p.n)

/-- A point paired with the residuals of another one. -/
def form : K := w.x ⬝ᵥ d.dual p - w.y ⬝ᵥ d.primal p - w.tau * d.gap p

/-- **The model is skew**: of the two ways to pair two points, only their products are left. -/
theorem form_add_form : w.form p d + d.form p w = -w.cross d := by
  simp only [form, primal, dual, gap, cross, dotProduct_sub, dotProduct_smul, smul_eq_mul,
    dotProduct_transpose_mulVec, dotProduct_comm d.x p.cost, dotProduct_comm w.x p.cost,
    dotProduct_comm d.y p.target, dotProduct_comm w.y p.target]
  ring

theorem form_self : w.form p w = -w.products := by
  have h := form_add_form p w w
  rw [cross_self] at h
  linarith

/-- The residuals of `w` are those of `v` times a number. -/
structure Scales (t : K) : Prop where
  primal : w.primal p = t • v.primal p
  dual : w.dual p = t • v.dual p
  gap : w.gap p = t * v.gap p

variable {p v w d}

theorem form_of_scales {t : K} (h : Scales p v d t) : w.form p d = t * w.form p v := by
  simp only [form, h.primal, h.dual, h.gap, dotProduct_smul, smul_eq_mul]
  ring

/-- **A change that removes the fraction `eta` of the residuals** has its products determined by
the change of the products to first order. -/
theorem products_of_scales {eta : K} (h : Scales p w d (-eta)) :
    d.products = -eta * (w.cross d + eta * w.products) := by
  -- Pairing is linear in the residuals, and the skew law gives the one pairing that is not known.
  have hww : w.form p w = -w.products := form_self p w
  have hwd : w.form p d = -eta * w.form p w := form_of_scales h
  have hdd : d.form p d = -eta * d.form p w := form_of_scales h
  have hskew : w.form p d + d.form p w = -w.cross d := form_add_form p w d
  have hdw : d.form p w = -w.cross d - eta * w.products := by
    rw [hwd, hww] at hskew
    linarith
  rw [form_self, hdw] at hdd
  linarith

end Form

/-! ### The blind start -/

theorem products_blindStart (m n : ℕ) : (blindStart m n : Point K m n).products = n + 1 := by
  simp [products, blindStart, dotProduct]

theorem mu_blindStart (m n : ℕ) : (blindStart m n : Point K m n).mu = 1 := by
  rw [mu, products_blindStart, div_self (count_ne_zero n)]

/-! ### Indicators -/

section Indicators

variable (p : Problem K) (w : Point K p.m p.n)

/-- The indicators of a point. -/
def indicators : Indicators K where
  rhoP := ExactField.norm (w.primal p) / max 1 (ExactField.norm ((blindStart p.m p.n).primal p))
  rhoD := ExactField.norm (w.dual p) / max 1 (ExactField.norm ((blindStart p.m p.n).dual p))
  rhoA := |p.cost ⬝ᵥ w.x - p.target ⬝ᵥ w.y| / (w.tau + |p.target ⬝ᵥ w.y|)
  rhoG := |w.gap p| / max 1 |(blindStart p.m p.n).gap p|
  rhoMu := w.mu
  obj := p.cost ⬝ᵥ (w.tau⁻¹ • w.x)

end Indicators

end Point

theorem residuals_blindStart (traps : Traps) (p : Problem K) :
    residuals traps p (.blindStart p.m p.n) = .ok ((Point.blindStart p.m p.n).residuals p) := by
  rw [← Point.iterate_blindStart, residuals_exact]

/-- **The indicators that are computed** where `tau` is positive. -/
theorem indicators_exact (traps : Traps) (p : Problem K) {w : Point K p.m p.n}
    (h : 0 < w.tau) : indicators traps p w.iterate = .ok (w.indicators p) := by
  have hsolution := Point.solution_exact traps h.ne'
  have hbelow : w.tau + |p.target ⬝ᵥ w.y| ≠ 0 := by positivity
  simp [indicators, residuals_blindStart, hsolution, Scalar.quotient_of_ne, hbelow,
    Point.residuals, Point.mu_blindStart, Point.indicators, p.b_eq, p.c_eq, pure, Except.pure]

/-- Where `tau` is zero, the indicators break down. -/
theorem indicators_of_tau_eq_zero (p : Problem K) {w : Point K p.m p.n} (h : w.tau = 0) :
    ∃ b, indicators .on p w.iterate = .error (.breakdown b) := by
  have hsolution : w.iterate.solution .on =
      .error (.breakdown (.trapped .zeroDivide .divide false)) := by
    rw [Iterate.solution, Point.iterate_tau, h]
    exact Tensor.div_vector_scalar_zero w.x p.n_pos
  -- The relative gap may divide by zero before the objective does.
  by_cases hbelow : w.tau + |p.target ⬝ᵥ w.y| = 0
  · refine ⟨.divisionByZero, ?_⟩
    simp [indicators, residuals_blindStart, Scalar.quotient, hbelow, Point.residuals, p.b_eq,
      p.c_eq]
  · refine ⟨.trapped .zeroDivide .divide false, ?_⟩
    simp [indicators, residuals_blindStart, hsolution, Scalar.quotient_of_ne, hbelow,
      Point.residuals, Point.mu_blindStart, p.b_eq, p.c_eq]

end SelfDual
