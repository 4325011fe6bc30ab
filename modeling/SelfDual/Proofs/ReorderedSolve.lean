import SelfDual.Proofs.Reordering
import SelfDual.Proofs.ResidualNorms
import SelfDual.Proofs.Simulation
import SelfDual.Proofs.Totality
/-!
**Solves of programs in another order.**

A solve does not depend on the order of the variables or on that of the constraints.  Iteration by
iteration the two solves stand at the same point in another order, with the same indicators; so they
stop for the same reason, and the norms of the residuals are the same.

Main definitions:

* `Tensor.reorder`, `Iterate.reorder`, `Advance.reorder`, `Result.reorder` — what a solve forms,
  with the entries in another order;
* `Callback.reorder` — the callback that restores the order of what it is shown;
* `Problem.reorder` — the program with its variables and constraints in another order;
* `Progress.Reorders` — two loops at the same point in another order.

Main results:

* `Problem.Reorders.result_of_progress`, `Problem.Reorders.verdict_eq` — results and reasons to
  stop;
* `Problem.Reorders.mirrors` — **the two runs mirror each other**;
* `Problem.Reorders.result_solve` — the results of the two solves;
* `solve_reorder` — **a program in another order is solved in the same way**.
-/

set_option autoImplicit false

open Matrix

namespace SelfDual

/-! ### What a solve forms, in another order -/

section Data

variable {R : Type} {m n m' n' : ℕ}

/-- The vector of the first entries of a tensor, in another order. -/
def Tensor.reorder [Zero R] (e : Fin n' ≃ Fin n) (t : Tensor R) : Tensor R :=
  .ofVector (t.toVector n ∘ e)

@[simp] theorem Tensor.reorder_ofVector [Zero R] (e : Fin n' ≃ Fin n) (v : Fin n → R) :
    (ofVector v).reorder e = ofVector (v ∘ e) := by
  rw [reorder, toVector_ofVector]

/-- The order can be restored. -/
theorem Tensor.reorder_symm [Zero R] (e : Fin n' ≃ Fin n) (v : Fin n → R) :
    (ofVector (v ∘ e)).reorder e.symm = ofVector v := by
  rw [reorder_ofVector, Function.comp_assoc, Equiv.self_comp_symm, Function.comp_id]

variable [Zero R] (rows : Fin m' ≃ Fin m) (cols : Fin n' ≃ Fin n)

/-- A point with the entries of its parts in another order. -/
def Iterate.reorder (it : Iterate R) : Iterate R :=
  { it with x := it.x.reorder cols, y := it.y.reorder rows, z := it.z.reorder cols }

/-- An accepted iteration with the point it reaches in another order. -/
def Advance.reorder (a : Advance R) : Advance R :=
  { a with point := a.point.reorder rows cols }

/-- A result with the entries of its solution in another order. -/
def Result.reorder (r : Result R) : Result R :=
  { r with x := r.x.reorder cols, y := r.y.reorder rows, z := r.z.reorder cols }

/-- The callback that restores the order of the variables in what it is shown. -/
def Callback.reorder (answer : Callback R) : Callback R := fun snapshot =>
  answer { snapshot with x := snapshot.x.reorder cols.symm }

end Data

variable {K : Type} [ExactField K]

theorem Point.iterate_reorder {m n m' n' : ℕ} (rows : Fin m' ≃ Fin m) (cols : Fin n' ≃ Fin n)
    (w : Point K m n) : w.iterate.reorder rows cols = (w.reorder rows cols).iterate := by
  simp [Iterate.reorder, Point.iterate, Point.reorder]

theorem Iterate.reorder_blindStart {m n m' n' : ℕ} (rows : Fin m' ≃ Fin m)
    (cols : Fin n' ≃ Fin n) :
    (blindStart m n : Iterate K).reorder rows cols = blindStart m' n' := by
  rw [← Point.iterate_blindStart, Point.iterate_reorder, Point.reorder_blindStart,
    Point.iterate_blindStart]

/-! ### Programs in another order -/

namespace Problem

/-- **The program with its constraints and its variables in another order.** -/
def reorder (p : Problem K) (rows : Equiv.Perm (Fin p.m)) (cols : Equiv.Perm (Fin p.n)) :
    Problem K :=
  .ofMatrix (p.matrix.submatrix rows cols) (p.cost ∘ cols) (p.target ∘ rows) p.n_pos

variable (p : Problem K) (rows : Equiv.Perm (Fin p.m)) (cols : Equiv.Perm (Fin p.n))

theorem reorders_reorder : p.Reorders (p.reorder rows cols) rows cols where
  matrix := matrix_ofMatrix _ _ _ _
  cost := cost_ofMatrix _ _ _ _
  target := target_ofMatrix _ _ _ _

end Problem

/-! ### Loops at the same point -/

/-- **Two loops at the same point** in another order: their indicators are the same, those of the
iterations before as well. -/
structure Progress.Reorders {m n m' n' : ℕ} (s s' : Progress K) (w : Point K m n)
    (rows : Fin m' ≃ Fin m) (cols : Fin n' ≃ Fin n) : Prop where
  point : s.point = w.iterate
  reordered : s'.point = (w.reorder rows cols).iterate
  nit : s'.nit = s.nit
  indicators : s'.indicators = s.indicators
  history : s'.history = s.history

theorem Progress.Reorders.resultAt_reorder {m n m' n' : ℕ} {s s' : Progress K} {w : Point K m n}
    {rows : Fin m' ≃ Fin m} {cols : Fin n' ≃ Fin n} (h : s.Reorders s' w rows cols) (tol : K)
    (stop : Stop) (primal dual : K) :
    s'.resultAt (w.reorder rows cols) tol stop primal dual =
      (s.resultAt w tol stop primal dual).reorder rows cols := by
  simp only [Progress.resultAt, Result.reorder, snap_vector, Tensor.reorder_ofVector, h.nit,
    h.indicators, h.history]
  rfl

namespace Problem.Reorders

variable {p p' : Problem K} {rows : Fin p'.m ≃ Fin p.m} {cols : Fin p'.n ≃ Fin p.n}
  (h : p.Reorders p' rows cols) {o : Options K} {s s' : Progress K} {w : Point K p.m p.n}

include h

/-- What the residuals have in common. -/
theorem residuals (tol : K) (x z : Fin p.n → K) (y : Fin p.m → K) :
    p'.matrix *ᵥ snapped tol (x ∘ cols) - p'.target =
        (p.matrix *ᵥ snapped tol x - p.target) ∘ rows ∧
      p'.cost - p'.matrixᵀ *ᵥ (y ∘ rows) - z ∘ cols =
        (p.cost - p.matrixᵀ *ᵥ y - z) ∘ cols := by
  have hsnapped : snapped tol (x ∘ cols) = snapped tol x ∘ cols := rfl
  rw [hsnapped, h.mulVec_comp, h.transpose_mulVec_comp, h.target, h.cost]
  exact ⟨rfl, rfl⟩

/-- **Loops at the same point have the same results**, but for the order of the solution. -/
theorem result_of_progress (hs : s.Reorders s' w rows cols) (htau : w.tau ≠ 0) (tol : K)
    (stop : Stop) :
    s'.result p' tol stop = (s.result p tol stop).map (Result.reorder rows cols) := by
  obtain ⟨primal, dual, hresult, hprimal, hdual⟩ :=
    Progress.exists_result_isMaxNorm p hs.point htau tol stop
  obtain ⟨primal', dual', hresult', hprimal', hdual'⟩ :=
    Progress.exists_result_isMaxNorm p' hs.reordered htau tol stop
  obtain ⟨hresidual, hresidual'⟩ :=
    h.residuals tol (w.tau⁻¹ • w.x) (w.tau⁻¹ • w.z) (w.tau⁻¹ • w.y)
  -- Both solves compute the greatest absolute value of the same entries.
  have hprimal_eq : primal' = primal :=
    (hresidual ▸ hprimal' : IsMaxNorm _ primal').unique (hprimal.comp rows)
  have hdual_eq : dual' = dual :=
    (hresidual' ▸ hdual' : IsMaxNorm _ dual').unique (hdual.comp cols)
  rw [hresult, hresult', hprimal_eq, hdual_eq, hs.resultAt_reorder]
  rfl

/-- **Loops at the same point stop for the same reason.** -/
theorem verdict_eq (hs : s.Reorders s' w rows cols) (callback callback' : Option (Callback K))
    (clock : ℕ → K) (wish : Bool) :
    (Run.standard p' o callback' clock).verdict s' wish =
      (Run.standard p o callback clock).verdict s wish := by
  have hdot : Tensor.dot .off (Run.standard p' o callback' clock).problem.b s'.point.y =
      Tensor.dot .off (Run.standard p o callback clock).problem.b s.point.y := by
    have hdual := h.target_dotProduct w.y
    rw [hs.point, hs.reordered]
    exact (Point.dot_target .off p' _).trans
      ((congrArg Except.ok hdual).trans (Point.dot_target .off p w).symm)
  have htime : (Run.standard p' o callback' clock).timeIsUp s.nit =
      (Run.standard p o callback clock).timeIsUp s.nit := rfl
  have htau : s'.point.tau = s.point.tau := by
    rw [hs.point, hs.reordered]
    rfl
  have hkappa : s'.point.kappa = s.point.kappa := by
    rw [hs.point, hs.reordered]
    rfl
  rw [Run.verdict, Run.verdict, hdot, htau, hkappa, hs.nit, htime, hs.indicators]
  rfl

end Problem.Reorders

/-! ### Two runs -/

section Runs

variable {p p' : Problem K} {rows : Fin p'.m ≃ Fin p.m} {cols : Fin p'.n ≃ Fin p.n}
  {o : Options K} {callback callback' : Option (Callback K)} {clock : ℕ → K}
  {start : Indicators K} {as : List (Advance K)} {a : Advance K} {w : Point K p.m p.n}

/-- After the same iterations, their points in another order, two loops stand at the same point. -/
theorem Run.reorders_after
    (hpoint : ((standard p o callback clock).after start as).point = w.iterate) :
    ((standard p o callback clock).after start as).Reorders
      ((standard p' o callback' clock).after start (as.map (Advance.reorder rows cols))) w rows
      cols where
  point := hpoint
  reordered := by
    rw [← Point.iterate_reorder, ← hpoint, after, after, List.getLast?_map]
    cases as.getLast? with
    | none => exact (Iterate.reorder_blindStart rows cols).symm
    | some a => rfl
  nit := List.length_map _
  indicators := by
    rw [after, after, List.getLast?_map]
    cases as.getLast? <;> rfl
  history := by
    rw [after, after, List.map_map]
    rfl

/-- So do two solves where they end, if they stop for the same reason. -/
theorem Run.Course.reorders {s s' : Progress K} {stop : Stop}
    (h : (standard p o callback clock).Course start as s (.ok stop))
    (h' : (standard p' o callback' clock).Course start (as.map (Advance.reorder rows cols)) s'
      (.ok stop)) (hpoint : s.point = w.iterate) : s.Reorders s' w rows cols := by
  obtain ⟨hafter, hindicators, hhistory⟩ := h.fields_eq
  obtain ⟨hafter', hindicators', hhistory'⟩ := h'.fields_eq
  have hreorders : ((standard p o callback clock).after start as).Reorders
      ((standard p' o callback' clock).after start (as.map (Advance.reorder rows cols))) w rows
      cols := reorders_after (hafter.symm.trans hpoint)
  exact {
    point := hpoint
    reordered := hafter'.trans hreorders.reordered
    nit := h.nit_eq h' (List.length_map _)
    indicators := (hindicators'.trans hreorders.indicators).trans hindicators.symm
    history := (hhistory'.trans List.map_map).trans hhistory.symm }

/-- What the callback is shown at a point where `tau` is not zero. -/
theorem Advance.snapshot_exact {m n : ℕ} {v : Point K m n} (ha : a.point = v.iterate)
    (htau : v.tau ≠ 0) (nit : ℕ) :
    a.snapshot nit = .ok ⟨nit, a.alpha, a.indicators, .ofVector (v.tau⁻¹ • v.x)⟩ := by
  rw [snapshot, ha, Point.solution_exact .off htau]
  rfl

/-- **The callbacks answer the same** after the same iteration. -/
theorem Run.wish_reorder (ha : a.point = w.iterate) (htau : w.tau ≠ 0) (nit : ℕ) :
    (standard p' o (callback.map (Callback.reorder cols)) clock).wish nit (a.reorder rows cols) =
      (standard p o callback clock).wish nit a := by
  cases callback with
  | none => rfl
  | some answer =>
    have hpoint : (a.reorder rows cols).point = (w.reorder rows cols).iterate := by
      rw [← Point.iterate_reorder, ← ha]
      rfl
    have hshown : (Tensor.ofVector ((w.tau⁻¹ • w.x) ∘ cols)).reorder cols.symm =
        .ofVector (w.tau⁻¹ • w.x) := Tensor.reorder_symm cols _
    change ((a.reorder rows cols).snapshot nit >>= Callback.reorder cols answer) =
      (a.snapshot nit >>= answer)
    rw [Advance.snapshot_exact hpoint htau, Advance.snapshot_exact ha htau, ok_bind, ok_bind]
    exact congrArg (fun x => answer ⟨nit, a.alpha, a.indicators, x⟩) hshown

/-- **The two runs mirror each other.** -/
theorem Problem.Reorders.mirrors (h : p.Reorders p' rows cols) :
    (Run.standard p o callback clock).Mirrors
      (Run.standard p' o (callback.map (Callback.reorder cols)) clock) start start
      (Advance.reorder rows cols) where
  step before step := by
    obtain ⟨w, hw, honPath⟩ := before.path.onPath
    rw [hw] at step
    obtain ⟨w₁, hpoint, hadvance⟩ := h.advance_ok honPath.nonneg step
    rw [(Run.reorders_after hw).reordered, Advance.reorder, hpoint, Point.iterate_reorder]
    exact hadvance
  breakdown before step := by
    obtain ⟨w, hw, honPath⟩ := before.path.onPath
    rw [hw] at step
    rw [(Run.reorders_after hw).reordered]
    exact ⟨exists_breakdown_of_error honPath.nonneg step, h.advance_error honPath.nonneg step⟩
  wish before step := by
    obtain ⟨w, hw, honPath⟩ := (before.path.snoc step).onPath
    exact Run.wish_reorder hw honPath.tau_pos.ne' _
  verdict := by
    intro as a before step wish
    obtain ⟨w, hw, honPath⟩ := (before.path.snoc step).onPath
    rw [← Run.point_after_snoc (Run.standard p o callback clock) start as a] at hw
    have hmap : as.map (Advance.reorder rows cols) ++ [a.reorder rows cols] =
        (as ++ [a]).map (Advance.reorder rows cols) := by
      rw [List.map_append, List.map_singleton]
    rw [hmap]
    exact h.verdict_eq (Run.reorders_after hw) _ _ clock wish

end Runs

/-! ### The two solves -/

section Solves

variable {p p' : Problem K} {rows : Fin p'.m ≃ Fin p.m} {cols : Fin p'.n ≃ Fin p.n}

/-- **The results of two solves** whose programs have the same data in another order. -/
theorem Problem.Reorders.result_solve (h : p.Reorders p' rows cols) (o : Options K)
    (callback : Option (Callback K)) (clock : ℕ → K) :
    (solve p' o (callback.map (Callback.reorder cols)) clock).result =
      (solve p o callback clock).result.map (Result.reorder rows cols) := by
  have hstart := Run.start_standard p o callback clock
  have hstart' := Run.start_standard p' o (callback.map (Callback.reorder cols)) clock
  rw [← Point.reorder_blindStart rows cols, h.indicators] at hstart'
  obtain ⟨as, s, answer, hcourse⟩ :=
    (Run.standard p o callback clock).exists_course ((Point.blindStart p.m p.n).indicators p)
  obtain ⟨s', hcourse'⟩ := h.mirrors.course hcourse
  cases answer with
  | error e =>
    have hresult : (solve p o callback clock).result = .error e :=
      hcourse.result_solve_of_error hstart
    rw [hresult]
    exact hcourse'.result_solve_of_error hstart'
  | ok stop =>
    obtain ⟨w, hw, honPath⟩ := hcourse.path.onPath
    have hresult : (solve p o callback clock).result = s.result p o.tol stop :=
      hcourse.result_solve hstart
    rw [hresult, ← h.result_of_progress (hcourse.reorders hcourse' hw) honPath.tau_pos.ne']
    exact hcourse'.result_solve hstart'

end Solves

/-- The solution of a result in another order. -/
theorem Result.exists_vectors {m n m' n' : ℕ} {r : Result K}
    (hr : r.x.shape = [n] ∧ r.y.shape = [m] ∧ r.z.shape = [n]) (rows : Fin m' ≃ Fin m)
    (cols : Fin n' ≃ Fin n) :
    ∃ (x z : Fin n → K) (y : Fin m → K),
      r.x = .ofVector x ∧ (r.reorder rows cols).x = .ofVector (x ∘ cols) ∧
      r.z = .ofVector z ∧ (r.reorder rows cols).z = .ofVector (z ∘ cols) ∧
      r.y = .ofVector y ∧ (r.reorder rows cols).y = .ofVector (y ∘ rows) := by
  obtain ⟨hx, hy, hz⟩ := hr
  exact ⟨r.x.toVector n, r.z.toVector n, r.y.toVector m, (Tensor.ofVector_toVector hx).symm, rfl,
    (Tensor.ofVector_toVector hz).symm, rfl, (Tensor.ofVector_toVector hy).symm, rfl⟩

/-- **A program in another order is solved in the same way.**  Its data are accepted, and if the
callback restores the order of what it is shown, its solve ends with the same status after the same
number of iterations, with the same objective, history and norms of the residuals; its solution is
that of the program in the other order.  Both solves fail together, with the error of the
callback. -/
theorem solve_reorder (p : Problem K) (o : Options K) (callback : Option (Callback K))
    (clock : ℕ → K) (rows : Equiv.Perm (Fin p.m)) (cols : Equiv.Perm (Fin p.n)) :
    Problem.accept (.ofVector (p.cost ∘ cols)) (.ofMatrix (p.matrix.submatrix rows cols))
        (.ofVector (p.target ∘ rows)) = .ok (p.reorder rows cols) ∧
    ((∃ r r' : Result K, (solve p o callback clock).result = .ok r ∧
        (solve (p.reorder rows cols) o (callback.map (Callback.reorder cols)) clock).result =
          .ok r' ∧
        r'.status = r.status ∧ r'.message = r.message ∧ r'.nit = r.nit ∧
        r'.objective = r.objective ∧ r'.history = r.history ∧
        r'.primalResidual = r.primalResidual ∧ r'.dualResidual = r.dualResidual ∧
        ∃ (x z : Fin p.n → K) (y : Fin p.m → K),
          r.x = .ofVector x ∧ r'.x = .ofVector (x ∘ cols) ∧
          r.z = .ofVector z ∧ r'.z = .ofVector (z ∘ cols) ∧
          r.y = .ofVector y ∧ r'.y = .ofVector (y ∘ rows)) ∨
      ∃ answer snapshot e, callback = some answer ∧ answer snapshot = .error e ∧
        (solve p o callback clock).result = .error e ∧
        (solve (p.reorder rows cols) o (callback.map (Callback.reorder cols)) clock).result =
          .error e) := by
  have hsolve := (p.reorders_reorder rows cols).result_solve o callback clock
  refine ⟨(p.reorder rows cols).accept_data, ?_⟩
  cases hresult : (solve p o callback clock).result with
  | ok r =>
    rw [hresult] at hsolve
    exact .inl ⟨r, r.reorder rows cols, rfl, hsolve, rfl, rfl, rfl, rfl, rfl, rfl, rfl,
      Result.exists_vectors (shapes_of_result hresult) rows cols⟩
  | error e =>
    rw [hresult] at hsolve
    obtain ⟨answer, snapshot, hcallback, he⟩ := exists_callback_of_error hresult
    exact .inr ⟨answer, snapshot, e, hcallback, he, rfl, hsolve⟩

end SelfDual
