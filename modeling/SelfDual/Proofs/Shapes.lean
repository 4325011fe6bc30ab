import SelfDual.Solve.Result
/-!
**Shapes through an iteration.**

The data of a linear program fit together, and so do the parts of every point of a solve: `x` and
`z` have an entry for each variable, `y` has one for each constraint.  So nothing in an iteration
can fail for a shape.  Whatever the scalars are, what fails is a trapped exception, a factorization
or a test for finiteness, and these are breakdowns; the one exception is the square in the centering
rule, which can be too large.

Main definitions:

* `Yields` — a computation gives a value with a property, or breaks down;
* `Iterate.Fits` — the parts of a point have the shapes that a program asks for;
* `Kernels.Sound` — kernels that keep these shapes and fail only by breaking down.

Main results:

* `Yields.bind` — a computation that goes on;
* `Tensor.yields_combine`, `Tensor.yields_matMul` — operations on tensors whose shapes fit;
* `Cholesky.length_solve` — a solve with a factor keeps the length;
* `yields_factorize`, `Problem.yields_saddleSolve`, `NewtonSystem.yields_assemble` — the Newton
  system;
* `Kernels.sound_standard` — **the method itself is sound**;
* `Iterate.Fits.exists_result` — a point whose parts fit has a result.
-/

set_option autoImplicit false

namespace SelfDual

variable {R : Type} [Scalar R] {traps : Traps}

/-! ### Values and breakdowns -/

/-- **A computation gives a value with a property, or breaks down**, which it can do only with
traps. -/
inductive Yields {α : Type} (traps : Traps) (P : α → Prop) : Except Error α → Prop where
  | ok {a : α} (h : P a) : Yields traps P (.ok a)
  | breakdown {b : Breakdown} (h : traps = .on) : Yields traps P (.error (.breakdown b))

namespace Yields

variable {α β : Type} {P : α → Prop} {x : Except Error α}

/-- A computation that goes on with the value. -/
theorem bind {S : β → Prop} {f : α → Except Error β} (hx : Yields traps P x)
    (hf : ∀ a, P a → Yields traps S (f a)) : Yields traps S (x >>= f) := by
  cases hx with
  | ok h => exact hf _ h
  | breakdown h => exact .breakdown h

/-- Without traps nothing breaks down. -/
theorem exists_ok (hx : Yields .off P x) : ∃ a, x = .ok a ∧ P a := by
  cases hx with
  | ok h => exact ⟨_, rfl, h⟩
  | breakdown h => cases h

/-- What has been given has the property. -/
theorem of_eq_ok {a : α} (hx : Yields traps P x) (ha : x = .ok a) : P a := by
  subst ha
  cases hx with
  | ok h => exact h

/-- What succeeds without traps is what it is with them. -/
theorem of_off (hx : Yields .off P x) : Yields traps P x := by
  obtain ⟨a, rfl, h⟩ := hx.exists_ok
  exact .ok h

end Yields

theorem Traps.yields_guard {α : Type} {P : α → Prop} {result : α} (h : P result)
    (op : Operation) (onScalars : Bool) (holds : Exception → Bool) :
    Yields traps P (traps.guard op onScalars holds result) := by
  cases traps with
  | off => exact .ok h
  | on =>
    rw [guard]
    split
    · exact .breakdown rfl
    · exact .ok h

theorem Scalar.yields_quotient (a b : R) : Yields .on (fun _ => True) (quotient a b) := by
  rw [quotient]
  split
  · exact .breakdown rfl
  · exact .ok trivial

/-! ### Operations on tensors -/

namespace Shape

/-- A shape without axes fits every shape. -/
theorem common?_nil_left (s : List Nat) : common? [] s = some s := by
  have hones : ∀ s, commonLengths? (List.replicate s.length 1) s = some s := by
    intro s
    induction s with
    | nil => rfl
    | cons n s ih => simp [List.replicate_succ, commonLengths?, ih]
  simp [common?, pad, hones]

theorem common?_nil_right (s : List Nat) : common? s [] = some s := by
  have hones : ∀ s, commonLengths? s (List.replicate s.length 1) = some s := by
    intro s
    induction s with
    | nil => rfl
    | cons n s ih => simp [List.replicate_succ, commonLengths?, ih]
  simp [common?, pad, hones]

/-- A vector fits a matrix whose rows are as long. -/
theorem common?_row (m n : Nat) : common? [m, n] [n] = some [m, n] := by
  simp [common?, pad, commonLengths?]

end Shape

namespace Tensor

variable {a b : Tensor R} {s : List Nat} {m n k : Nat} {op : Operation}

/-- **Tensors whose shapes fit are combined.** -/
theorem yields_combine (h : Shape.common? a.shape b.shape = some s) :
    Yields traps (fun t => t.shape = s) (combine traps op a b) := by
  rw [combine, h]
  exact Traps.yields_guard (by simp) _ _ _

theorem yields_same (ha : a.shape = s) (hb : b.shape = s) :
    Yields traps (fun t => t.shape = s) (combine traps op a b) :=
  yields_combine (by rw [ha, hb, Shape.common?_self])

theorem yields_scalar_left (ha : a.shape = []) (hb : b.shape = s) :
    Yields traps (fun t => t.shape = s) (combine traps op a b) :=
  yields_combine (by rw [ha, hb, Shape.common?_nil_left])

theorem yields_scalar_right (ha : a.shape = s) (hb : b.shape = []) :
    Yields traps (fun t => t.shape = s) (combine traps op a b) :=
  yields_combine (by rw [ha, hb, Shape.common?_nil_right])

/-- **Tensors whose shapes fit are multiplied.** -/
theorem yields_matMul {c : Contraction} (h : Contraction.ofShapes? a.shape b.shape = some c) :
    Yields traps (fun t => t.shape = c.shape) (matMul traps a b) := by
  rw [matMul, h]
  exact Traps.yields_guard (P := fun t : Tensor R => t.shape = c.shape) rfl _ _ _

theorem yields_matrixVector (ha : a.shape = [m, n]) (hb : b.shape = [n]) :
    Yields traps (fun t => t.shape = [m]) (matMul traps a b) :=
  yields_matMul (c := .matrixVector m n) (by simp [ha, hb, Contraction.ofShapes?])

theorem yields_vectors (ha : a.shape = [n]) (hb : b.shape = [n]) :
    Yields traps (fun t => t.shape = []) (matMul traps a b) :=
  yields_matMul (c := .vectors n) (by simp [ha, hb, Contraction.ofShapes?])

theorem yields_matrices (ha : a.shape = [m, n]) (hb : b.shape = [n, k]) :
    Yields traps (fun t => t.shape = [m, k]) (matMul traps a b) :=
  yields_matMul (c := .matrices m n k) (by simp [ha, hb, Contraction.ofShapes?])

theorem yields_number (ha : a.shape = []) : Yields traps (fun _ => True) a.number := by
  rw [number, ha]
  exact .ok trivial

theorem yields_dot (ha : a.shape = [n]) (hb : b.shape = [n]) :
    Yields traps (fun _ => True) (dot traps a b) :=
  (yields_vectors ha hb).bind fun _ ht => yields_number ht

theorem yields_norm (a : Tensor R) : Yields traps (fun _ => True) (norm traps a) :=
  (Traps.yields_guard (P := fun _ => True) trivial _ _ _).bind fun _ _ => .ok trivial

omit [Scalar R] in
/-- A tensor whose shape has positions has entries. -/
theorem toList_ne_nil (h : 0 < Shape.size a.shape) : a.toList ≠ [] := by
  intro hnil
  have hsize : a.data.size = 0 := by
    rw [← Array.length_toList]
    exact congrArg List.length hnil
  rw [a.size_data] at hsize
  omega

theorem yields_minimum (h : 0 < Shape.size a.shape) :
    Yields traps (fun _ => True) a.minimum := by
  cases hlist : a.toList with
  | nil => exact absurd hlist (toList_ne_nil h)
  | cons x xs =>
    rw [minimum, hlist]
    exact .ok trivial

theorem yields_maximum (h : 0 < Shape.size a.shape) :
    Yields traps (fun _ => True) a.maximum := by
  cases hlist : a.toList with
  | nil => exact absurd hlist (toList_ne_nil h)
  | cons x xs =>
    rw [maximum, hlist]
    exact .ok trivial

theorem yields_maxNorm (ha : a.shape = [n]) (hn : 0 < n) :
    Yields traps (fun _ => True) a.maxNorm := by
  rw [maxNorm, ha]
  exact yields_maximum (by simpa [abs, ha] using hn)

end Tensor

/-! ### Points and residuals -/

/-- The parts of a point have the shapes that a program asks for. -/
structure Iterate.Fits (p : Problem R) (it : Iterate R) : Prop where
  x : it.x.shape = [p.n]
  y : it.y.shape = [p.m]
  z : it.z.shape = [p.n]

/-- The same for a direction. -/
structure Direction.Fits (p : Problem R) (d : Direction R) : Prop where
  dx : d.dx.shape = [p.n]
  dy : d.dy.shape = [p.m]
  dz : d.dz.shape = [p.n]

/-- The same for residuals. -/
structure Residuals.Fits (p : Problem R) (r : Residuals R) : Prop where
  primal : r.primal.shape = [p.m]
  dual : r.dual.shape = [p.n]

variable {p : Problem R} {it : Iterate R}

theorem Iterate.fits_blindStart (p : Problem R) : (blindStart p.m p.n : Iterate R).Fits p :=
  ⟨rfl, rfl, rfl⟩

theorem Problem.shape_transpose_A (p : Problem R) : p.A.transpose.shape = [p.n, p.m] := by
  rw [Tensor.shape_transpose, p.shape_A]
  rfl

open Tensor

theorem Iterate.Fits.yields_solution (h : it.Fits p) :
    Yields traps (fun t => t.shape = [p.n]) (it.solution traps) :=
  yields_scalar_right h.x (shape_scalar _)

theorem Iterate.Fits.yields_residuals (h : it.Fits p) :
    Yields traps (Residuals.Fits p) (residuals traps p it) := by
  -- The steps of the computation, in their order.
  refine (yields_scalar_right p.shape_b (shape_scalar _)).bind fun target htarget => ?_
  refine (yields_matrixVector p.shape_A h.x).bind fun product hproduct => ?_
  refine (yields_same htarget hproduct).bind fun primal hprimal => ?_
  refine (yields_scalar_right p.shape_c (shape_scalar _)).bind fun cost hcost => ?_
  refine (yields_matrixVector p.shape_transpose_A h.y).bind fun product hproduct => ?_
  refine (yields_same hcost hproduct).bind fun reduced hreduced => ?_
  refine (yields_same hreduced h.z).bind fun dual hdual => ?_
  refine (yields_vectors p.shape_c h.x).bind fun objective hobjective => ?_
  refine (yields_same (shape_scalar _) hobjective).bind fun above habove => ?_
  refine (yields_vectors p.shape_b h.y).bind fun objective hobjective => ?_
  refine (yields_same habove hobjective).bind fun gap hgap => ?_
  refine (yields_number hgap).bind fun _ _ => ?_
  refine (yields_vectors h.x h.z).bind fun products hproducts => ?_
  refine (yields_same hproducts (shape_scalar _)).bind fun sum hsum => ?_
  refine (yields_same hsum (shape_scalar _)).bind fun mu hmu => ?_
  refine (yields_number hmu).bind fun _ _ => ?_
  exact .ok ⟨hprimal, hdual⟩

theorem Iterate.Fits.yields_indicators (h : it.Fits p) :
    Yields .on (fun _ => True) (indicators .on p it) := by
  refine (Iterate.fits_blindStart p).yields_residuals.bind fun start _ => ?_
  refine h.yields_residuals.bind fun now _ => ?_
  refine (yields_dot p.shape_b h.y).bind fun dualObjective _ => ?_
  refine (yields_norm _).bind fun _ _ => ?_
  refine (yields_norm _).bind fun _ _ => ?_
  refine (yields_norm _).bind fun _ _ => ?_
  refine (yields_norm _).bind fun _ _ => ?_
  refine (yields_dot p.shape_c h.x).bind fun primalObjective _ => ?_
  refine (Scalar.yields_quotient _ _).bind fun rhoA _ => ?_
  refine (Scalar.yields_quotient _ _).bind fun rhoMu _ => ?_
  refine h.yields_solution.bind fun solution hsolution => ?_
  exact (yields_dot p.shape_c hsolution).bind fun _ _ => .ok trivial

/-! ### The ratio test -/

theorem yields_blockStep {n : Nat} {value delta : Tensor R} (hvalue : value.shape = [n])
    (hdelta : delta.shape = [n]) (alpha0 : R) :
    Yields traps (fun _ => True) (blockStep traps value delta alpha0) := by
  rw [blockStep]
  split
  case isFalse => exact .ok trivial
  case isTrue hfalls =>
    have hselect : ∀ {t : Tensor R} (keep : Nat → Bool), t.shape = [n] →
        t.select delta.shape keep = .ok (ofList ((chosen [n] keep).map t.entry)) := by
      intro t keep ht
      rw [hdelta, ← ht]
      exact select_self t keep
    -- Some component falls, so that there is a ratio to choose.
    have hchosen : 0 < (chosen [n] fun k => delta.entry k < 0).length := by
      rw [any, Array.any_eq_true] at hfalls
      obtain ⟨k, hk, hlt⟩ := hfalls
      have hentry : delta.entry k = delta.data[k] := by simp [entry, Array.getD, hk]
      refine List.length_pos_of_mem (a := k) (List.mem_filter.2 ⟨?_, ?_⟩)
      · rw [delta.size_data, hdelta] at hk
        exact List.mem_range.2 hk
      · rw [hentry]
        exact hlt
    dsimp only
    rw [hselect _ hvalue, hselect _ hdelta, ok_bind, ok_bind]
    refine (yields_same (shape_ofList _) (by simp)).bind fun ratios hratios => ?_
    refine (yields_minimum (by simpa [hratios] using hchosen)).bind fun _ _ => ?_
    exact Traps.yields_guard trivial _ _ _

theorem Iterate.Fits.yields_stepLength (h : it.Fits p) {d : Direction R} (hd : d.Fits p)
    (alpha0 : R) : Yields traps (fun _ => True) (stepLength traps it d alpha0) := by
  refine (yields_blockStep h.x hd.dx alpha0).bind fun _ _ => ?_
  refine (yields_blockStep h.z hd.dz alpha0).bind fun _ _ => ?_
  exact .ok trivial

theorem yields_shift {n : Nat} {v dv : Tensor R} (hv : v.shape = [n]) (hdv : dv.shape = [n])
    (alpha : R) : Yields traps (fun t => t.shape = [n]) (Iterate.shift traps v alpha dv) :=
  (yields_scalar_left (shape_scalar _) hdv).bind fun _ ht => yields_same hv ht

theorem Iterate.Fits.yields_move (h : it.Fits p) {d : Direction R} (hd : d.Fits p) (alpha : R) :
    Yields traps (Iterate.Fits p) (it.move traps d alpha) := by
  refine (yields_shift h.x hd.dx alpha).bind fun x hx => ?_
  refine (yields_shift h.y hd.dy alpha).bind fun y hy => ?_
  refine (yields_shift h.z hd.dz alpha).bind fun z hz => ?_
  exact .ok ⟨hx, hy, hz⟩

/-! ### Factorizations -/

namespace Cholesky

/-- The last row of a factor has an entry left of the diagonal for each row above. -/
theorem exists_last_row {v : Variant R} {S : Nat → Nat → R} {k : Nat} {rows : List (Row R)}
    (h : factor v S (k + 1) = .ok rows) :
    ∃ block row, factor v S k = .ok block ∧ rows = block ++ [row] ∧ row.below.length = k := by
  rw [factor] at h
  obtain ⟨block, hblock, hlast⟩ := exists_of_bind h
  dsimp only at hlast
  split at hlast
  · cases hlast
  · refine ⟨block, _, hblock, (Except.ok.inj hlast).symm, ?_⟩
    rw [length_forward _ _ _ (by simp [length_factor hblock])]
    simp

/-- A solve with the transpose of a factor finds a component for every row. -/
theorem length_backward {v v' : Variant R} {S : Nat → Nat → R} {k : Nat} {rows : List (Row R)}
    (h : factor v S k = .ok rows) {w : List R} (hw : w.length = k) (found : List R) :
    (backward v' rows.reverse w found).length = k + found.length := by
  -- The last row is solved for first; what is left is a solve with the rows above it.
  induction k generalizing rows w found with
  | zero =>
    cases h
    rw [List.length_eq_zero_iff.1 hw, Nat.zero_add]
    rfl
  | succ k ih =>
    obtain ⟨block, row, hblock, rfl, hbelow⟩ := exists_last_row h
    obtain ⟨s, w, rfl⟩ := List.exists_cons_of_length_eq_add_one hw
    rw [List.reverse_append, List.reverse_singleton, List.singleton_append, backward]
    have hw' : w.length = k := by simpa using hw
    rw [ih hblock (by simp [hbelow, hw']), List.length_cons]
    omega

/-- **A solve with a factored matrix keeps the length.** -/
theorem length_solve {v v' : Variant R} {S : Nat → Nat → R} {k : Nat} {rows : List (Row R)}
    (h : factor v S k = .ok rows) {r : List R} (hr : r.length = k) :
    (solve v' rows r).length = k := by
  have hforward : (forward v' rows r).length = k := by
    rw [length_forward _ _ _ (by rw [length_factor h, hr]), hr]
  rw [solve, length_backward h (by rw [List.length_reverse, hforward])]
  rfl

end Cholesky

/-- A factorization that solves for every right-hand side of a length. -/
def Factorization.Solves (m : Nat) (f : Factorization R) : Prop :=
  ∀ r : Tensor R, r.shape = [m] → ∃ t, f.solve r = .ok t ∧ t.shape = [m]

theorem Factorization.solves_of_factor {backend : Backend} {S : Nat → Nat → R} {m : Nat}
    {rows : List (Cholesky.Row R)} (h : Cholesky.factor backend.variant S m = .ok rows) :
    Solves m ⟨backend, m, rows⟩ := by
  intro r hr
  have hlength : (solveEntries ⟨backend, m, rows⟩ r 0 1).length = m :=
    Cholesky.length_solve h (by simp)
  rw [solve]
  split
  · next hm => exact ⟨_, rfl, by simp [show m = 0 from hm]⟩
  · refine ⟨ofList (solveEntries ⟨backend, m, rows⟩ r 0 1), ?_, by rw [shape_ofList, hlength]⟩
    cases backend with
    | host => simp [hr]
    | device => simp [hr]

theorem yields_factorize (backend : Backend) {matrix : Tensor R} {m : Nat}
    (h : matrix.shape = [m, m]) :
    Yields .on (Factorization.Solves m) (factorize backend matrix) := by
  rw [factorize, h]
  dsimp only
  rw [if_pos rfl, factorizeSquare]
  split
  · next hm =>
    rw [hm]
    exact .ok (Factorization.solves_of_factor (S := fun _ _ => 0) rfl)
  · split
    · exact .breakdown rfl
    · cases hfactor : Cholesky.factor backend.variant (fun i j => matrix.entry (i * m + j)) m with
      | ok rows => exact .ok (Factorization.solves_of_factor hfactor)
      | error order => exact .breakdown rfl

/-! ### The Newton system -/

theorem yields_scalingRatio {n : Nat} {x z : Tensor R} (hx : x.shape = [n]) (hz : z.shape = [n]) :
    Yields .on (fun t => t.shape = [n]) (scalingRatio x z) := by
  refine Yields.bind (yields_same hx hz).of_off fun ratio hratio => ?_
  split
  · exact .ok hratio
  · exact .breakdown rfl

theorem Problem.yields_normalMatrix (p : Problem R) {d : Tensor R} (hd : d.shape = [p.n]) :
    Yields traps (fun t => t.shape = [p.m, p.m]) (normalMatrix traps p.A d) := by
  refine (yields_combine (s := [p.m, p.n]) ?_).bind fun scaled hscaled => ?_
  · rw [p.shape_A, hd, Shape.common?_row]
  refine (yields_matrices hscaled p.shape_transpose_A).bind fun product hproduct => ?_
  have htranspose : product.transpose.shape = [p.m, p.m] := by
    rw [shape_transpose, hproduct]
    rfl
  refine (yields_same hproduct htranspose).bind fun sum hsum => ?_
  exact yields_scalar_left (shape_scalar _) hsum

theorem Problem.yields_saddleSolve (p : Problem R) {f : Factorization R} (hf : f.Solves p.m)
    {d r₁ r₂ : Tensor R} (hd : d.shape = [p.n]) (h₁ : r₁.shape = [p.n]) (h₂ : r₂.shape = [p.m]) :
    Yields .on (fun uv => uv.1.shape = [p.n] ∧ uv.2.shape = [p.m])
      (saddleSolve .on f p.A d r₁ r₂) := by
  refine (yields_same hd h₁).bind fun scaled hscaled => ?_
  refine (yields_matrixVector p.shape_A hscaled).bind fun product hproduct => ?_
  refine (yields_same h₂ hproduct).bind fun rhs hrhs => ?_
  obtain ⟨v, hsolve, hv⟩ := hf rhs hrhs
  rw [hsolve, ok_bind]
  refine (yields_matrixVector p.shape_transpose_A hv).bind fun product hproduct => ?_
  refine (yields_same hproduct h₁).bind fun difference hdifference => ?_
  refine (yields_same hd hdifference).bind fun u hu => ?_
  split
  · exact .ok ⟨hu, hv⟩
  · exact .breakdown rfl

namespace NewtonSystem

/-- The parts of a Newton system at a point of a program fit together. -/
structure Fits (p : Problem R) (it : Iterate R) (s : NewtonSystem R) : Prop where
  problem : s.problem = p
  point : s.point = it
  residuals : s.residuals.Fits p
  scaling : s.scaling.shape = [p.n]
  factorization : s.factorization.Solves p.m
  shape_p : s.p.shape = [p.n]
  shape_q : s.q.shape = [p.m]

theorem yields_assemble (backend : Backend) (h : it.Fits p) :
    Yields .on (Fits p it) (assemble .on (factorize backend) p it) := by
  refine h.yields_residuals.bind fun residuals hresiduals => ?_
  refine (yields_scalingRatio h.x h.z).bind fun scaling hscaling => ?_
  refine (p.yields_normalMatrix hscaling).bind fun matrix hmatrix => ?_
  refine (yields_factorize backend hmatrix).bind fun f hf => ?_
  refine (p.yields_saddleSolve hf hscaling p.shape_c p.shape_b).bind fun uv huv => ?_
  exact .ok ⟨rfl, rfl, hresiduals, hscaling, hf, huv.1, huv.2⟩

theorem yields_coupling {u v : Tensor R} (hu : u.shape = [p.n]) (hv : v.shape = [p.m]) :
    Yields traps (fun t => t.shape = []) (coupling traps p u v) := by
  refine (yields_vectors (p.c.shape_neg.trans p.shape_c) hu).bind fun cost hcost => ?_
  refine (yields_vectors p.shape_b hv).bind fun objective hobjective => ?_
  exact yields_same hcost hobjective

variable {s : NewtonSystem R}

theorem Fits.yields_direction (hs : s.Fits p it) (h : it.Fits p) (gamma : R) {r_xz : Tensor R}
    (hr : r_xz.shape = [p.n]) (r_tk : R) :
    Yields .on (Direction.Fits p) (s.direction .on gamma r_xz r_tk) := by
  obtain ⟨hproblem, hpoint, hresiduals, hscaling, hf, hp, hq⟩ := hs
  rw [direction, hproblem, hpoint]
  refine (yields_scalar_left (shape_scalar _) hresiduals.primal).bind fun primal hprimal => ?_
  refine (yields_scalar_left (shape_scalar _) hresiduals.dual).bind fun dual hdual => ?_
  refine (yields_same hr h.x).bind fun quotient hquotient => ?_
  refine (yields_same hdual hquotient).bind fun r₁ hr₁ => ?_
  refine (p.yields_saddleSolve hf hscaling hr₁ hprimal).bind fun uv huv => ?_
  refine (Scalar.yields_quotient _ _).bind fun _ _ => ?_
  refine (yields_coupling huv.1 huv.2).bind fun coupled hcoupled => ?_
  refine (yields_same (shape_scalar _) hcoupled).bind fun above habove => ?_
  refine (Scalar.yields_quotient _ _).bind fun _ _ => ?_
  refine (yields_coupling hp hq).bind fun coupled hcoupled => ?_
  refine (yields_same (shape_scalar _) hcoupled).bind fun below hbelow => ?_
  refine (yields_same habove hbelow).bind fun dtau hdtau => ?_
  refine (yields_scalar_right hp hdtau).bind fun change hchange => ?_
  refine (yields_same huv.1 hchange).bind fun dx hdx => ?_
  refine (yields_scalar_right hq hdtau).bind fun change hchange => ?_
  refine (yields_same huv.2 hchange).bind fun dy hdy => ?_
  refine (yields_same h.z hdx).bind fun product hproduct => ?_
  refine (yields_same hr hproduct).bind fun difference hdifference => ?_
  refine (yields_same hdifference h.x).bind fun dz hdz => ?_
  refine (yields_same (shape_scalar _) hdtau).bind fun product hproduct => ?_
  refine (yields_same (shape_scalar _) hproduct).bind fun change hchange => ?_
  refine (yields_same hchange (shape_scalar _)).bind fun dkappa hdkappa => ?_
  refine (yields_number hdtau).bind fun _ _ => ?_
  refine (yields_number hdkappa).bind fun _ _ => ?_
  exact .ok ⟨hdx, hdy, hdz⟩

theorem Fits.yields_predictor (hs : s.Fits p it) (h : it.Fits p) :
    Yields .on (Direction.Fits p) (s.predictor .on) := by
  rw [predictor, hs.point]
  refine (yields_same (it.x.shape_neg.trans h.x) h.z).bind fun r_xz hr => ?_
  exact hs.yields_direction h _ hr _

theorem Fits.yields_centredProducts (hs : s.Fits p it) (h : it.Fits p) (gamma : R) :
    Yields traps (fun t => t.shape = [p.n]) (s.centredProducts traps gamma) := by
  rw [centredProducts, hs.point]
  exact (yields_same h.x h.z).bind fun products hproducts =>
    yields_scalar_left (shape_scalar _) hproducts

theorem Fits.yields_corrector (hs : s.Fits p it) (h : it.Fits p) {d : Direction R}
    (hd : d.Fits p) (gamma : R) : Yields .on (Direction.Fits p) (s.corrector .on d gamma) := by
  refine (hs.yields_centredProducts h gamma).bind fun centred hcentred => ?_
  refine (yields_same hd.dx hd.dz).bind fun second hsecond => ?_
  refine (yields_same hcentred hsecond).bind fun r_xz hr => ?_
  exact hs.yields_direction h _ hr _

end NewtonSystem

theorem yields_searchDirection (backend : Backend) (h : it.Fits p) {beta : R}
    (hbeta : ∀ alpha, ∃ gamma, correctorGamma alpha beta = .ok gamma) :
    Yields .on (Direction.Fits p) (searchDirection .on (factorize backend) p it beta) := by
  refine (NewtonSystem.yields_assemble backend h).bind fun s hs => ?_
  refine (hs.yields_predictor h).bind fun predictor hpredictor => ?_
  refine (h.yields_stepLength hpredictor 1).bind fun alpha _ => ?_
  obtain ⟨gamma, hgamma⟩ := hbeta alpha
  rw [hgamma, ok_bind]
  exact hs.yields_corrector h hpredictor gamma

/-! ### Sound kernels -/

/-- **Sound kernels**: an iteration from a point whose parts fit leads to such a point, and if it
fails it breaks down. -/
structure Kernels.Sound (k : Kernels R) (p : Problem R) : Prop where
  yields : ∀ it : Iterate R, it.Fits p → Yields .on (fun a => a.point.Fits p) (k.advance it)

theorem Kernels.Sound.fits {k : Kernels R} (hk : k.Sound p) (h : it.Fits p) {a : Advance R}
    (ha : k.advance it = .ok a) : a.point.Fits p :=
  (hk.yields it h).of_eq_ok ha

theorem Kernels.Sound.exists_breakdown {k : Kernels R} (hk : k.Sound p) (h : it.Fits p) {e : Error}
    (he : k.advance it = .error e) : ∃ b, e = .breakdown b := by
  have hyields := hk.yields it h
  rw [he] at hyields
  cases hyields with
  | breakdown => exact ⟨_, rfl⟩

/-- **The method is sound**, whatever the scalars are, if the square in the centering rule is never
too large. -/
theorem Kernels.sound_standard (p : Problem R) (o : Options R)
    (hbeta : ∀ alpha, ∃ gamma, correctorGamma alpha o.beta = .ok gamma) :
    (Kernels.standard p o).Sound p where
  yields it h := by
    refine (yields_searchDirection o.backend h hbeta).bind fun d hd => ?_
    refine (h.yields_stepLength hd o.alpha0).bind fun alpha _ => ?_
    refine (h.yields_move hd alpha).bind fun trial htrial => ?_
    split
    · exact htrial.yields_indicators.bind fun _ _ => .ok htrial
    · exact .breakdown rfl

/-! ### Results -/

theorem yields_maxNormOrZero {n : Nat} {t : Tensor R} (ht : t.shape = [n]) :
    Yields traps (fun _ => True) (maxNormOrZero t) := by
  rw [maxNormOrZero]
  split
  · exact .ok trivial
  · next hsize => exact yields_maxNorm ht (by simpa [ht, Nat.pos_iff_ne_zero] using hsize)

/-- **A point whose parts fit has a result.** -/
theorem Iterate.Fits.exists_result {s : Progress R} (h : s.point.Fits p) (tol : R) (stop : Stop) :
    ∃ r, s.result p tol stop = .ok r := by
  have hresult : Yields .off (fun _ : Result R => True) (s.result p tol stop) := by
    refine (yields_scalar_right h.x (shape_scalar _)).bind fun x hx => ?_
    refine (yields_scalar_right h.y (shape_scalar _)).bind fun y hy => ?_
    refine (yields_scalar_right h.z (shape_scalar _)).bind fun z hz => ?_
    have hsnap : (snap tol x).shape = [p.n] := (shape_map _ x).trans hx
    refine Yields.bind ?_ fun primal (hprimal : primal.shape = [p.m]) => ?_
    · refine (yields_matrixVector p.shape_A hsnap).bind fun product hproduct => ?_
      exact yields_same hproduct p.shape_b
    refine Yields.bind ?_ fun dual (hdual : dual.shape = [p.n]) => ?_
    · refine (yields_matrixVector p.shape_transpose_A hy).bind fun product hproduct => ?_
      refine (yields_same p.shape_c hproduct).bind fun difference hdifference => ?_
      exact yields_same hdifference hz
    refine (yields_maxNormOrZero hprimal).bind fun _ _ => ?_
    refine (yields_maxNorm hdual p.n_pos).bind fun _ _ => ?_
    exact .ok trivial
  obtain ⟨r, hr, -⟩ := hresult.exists_ok
  exact ⟨r, hr⟩

end SelfDual
