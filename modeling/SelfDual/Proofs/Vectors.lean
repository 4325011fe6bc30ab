import Mathlib.LinearAlgebra.Matrix.DotProduct
import Mathlib.LinearAlgebra.Matrix.ToLin
import SelfDual.Proofs.ExactField
import SelfDual.Tensor.Product
/-!
**Tensors as vectors and matrices.**

A tensor with one axis is a vector and a tensor with two axes is a matrix.  In exact arithmetic an
operation on tensors is the operation of linear algebra on these, so a computation on tensors
becomes, step by step, an equation between vectors and matrices.

Main definitions:

* `ExactField.norm` — the Euclidean norm of a vector;
* `Tensor.ofVector`, `Tensor.toVector` — vectors as tensors and back;
* `Tensor.ofMatrix`, `Tensor.toMatrix` — matrices as tensors and back.

Main results:

* `Tensor.eq_ofVector`, `Tensor.eq_ofMatrix` — a tensor of the right shape is the vector or the
  matrix of its entries;
* `Tensor.combine_vectors` and its companions — **the entrywise operations succeed** unless they
  divide by zero, and combine the entries;
* `Tensor.matMul_matrix_vector`, `Tensor.matMul_matrices`, `Tensor.matMul_vectors` — the product of
  tensors is that of linear algebra.
-/

set_option autoImplicit false

open Matrix

namespace SelfDual.ExactField

variable {K : Type} [ExactField K] {n : ℕ}

/-! ### Norms -/

/-- The Euclidean norm of a vector. -/
def norm (v : Fin n → K) : K := sqrt (v ⬝ᵥ v)

theorem dotProduct_self_nonneg (v : Fin n → K) : 0 ≤ v ⬝ᵥ v :=
  Finset.sum_nonneg fun i _ => mul_self_nonneg (v i)

theorem dotProduct_self_pos {v : Fin n → K} (hv : v ≠ 0) : 0 < v ⬝ᵥ v :=
  (dotProduct_self_nonneg v).lt_of_ne fun h0 => hv (dotProduct_self_eq_zero.1 h0.symm)

theorem norm_smul {t : K} (ht : 0 ≤ t) (v : Fin n → K) : norm (t • v) = t * norm v := by
  rw [norm, smul_dotProduct, dotProduct_smul, smul_eq_mul, smul_eq_mul, ← mul_assoc,
    sqrt_sq_mul ht (dotProduct_self_nonneg v), norm]

end SelfDual.ExactField

namespace SelfDual.Tensor

/-! ### Vectors and matrices -/

section Entries

variable {α : Type} {m n : ℕ}

/-- A vector as a tensor. -/
def ofVector (v : Fin n → α) : Tensor α := ⟨[n], Array.ofFn v, by simp⟩

/-- A matrix as a tensor, row after row. -/
def ofMatrix (M : Matrix (Fin m) (Fin n) α) : Tensor α :=
  ⟨[m, n], Array.ofFn fun k : Fin (m * n) => M k.divNat k.modNat, by simp⟩

@[simp] theorem shape_ofVector (v : Fin n → α) : (ofVector v).shape = [n] := rfl

@[simp] theorem shape_ofMatrix (M : Matrix (Fin m) (Fin n) α) : (ofMatrix M).shape = [m, n] := rfl

theorem any_ofVector (v : Fin n → α) (p : α → Bool) :
    (ofVector v).any p = true ↔ ∃ i, p (v i) = true := by
  rw [any, Array.any_eq_true]
  simp [ofVector, Fin.exists_iff]

variable [Zero α]

/-- The vector of the first entries of a tensor. -/
def toVector (n : ℕ) (t : Tensor α) : Fin n → α := fun i => t.entry i

/-- The matrix of the first entries of a tensor. -/
def toMatrix (m n : ℕ) (t : Tensor α) : Matrix (Fin m) (Fin n) α := fun i j => t.entry (i * n + j)

@[simp] theorem entry_ofVector (v : Fin n → α) (i : Fin n) : (ofVector v).entry i = v i := by
  simp [ofVector, entry, Array.getD]

/-- A tensor with one axis is the vector of its entries. -/
theorem eq_ofVector {t : Tensor α} {v : Fin n → α} (hs : t.shape = [n])
    (h : ∀ i : Fin n, t.entry i = v i) : t = ofVector v := by
  refine ext_entry hs fun k hk => ?_
  have hk' : k < n := by simpa [hs] using hk
  exact (h ⟨k, hk'⟩).trans (entry_ofVector v ⟨k, hk'⟩).symm

@[simp] theorem toVector_ofVector (v : Fin n → α) : toVector n (ofVector v) = v :=
  funext (entry_ofVector v)

theorem ofVector_toVector {t : Tensor α} (hs : t.shape = [n]) : ofVector (toVector n t) = t :=
  (eq_ofVector hs fun _ => rfl).symm

theorem ofVector_injective : Function.Injective (ofVector : (Fin n → α) → Tensor α) := by
  intro u v h
  rw [← toVector_ofVector u, h, toVector_ofVector]

/-- Two positions of a matrix, one after the other. -/
theorem index_lt (i : Fin m) (j : Fin n) : i * n + j < m * n :=
  calc i * n + j < i * n + n := by omega
    _ = (i + 1) * n := by ring
    _ ≤ m * n := Nat.mul_le_mul_right n (by omega)

theorem index_div (i : ℕ) (j : Fin n) : (i * n + j) / n = i := by
  rw [mul_comm, Nat.mul_add_div j.pos, Nat.div_eq_of_lt j.isLt, add_zero]

theorem index_mod (i : ℕ) (j : Fin n) : (i * n + j) % n = j := by
  rw [mul_comm, Nat.mul_add_mod, Nat.mod_eq_of_lt j.isLt]

@[simp] theorem entry_ofMatrix (M : Matrix (Fin m) (Fin n) α) (i : Fin m) (j : Fin n) :
    (ofMatrix M).entry (i * n + j) = M i j := by
  have hlt : (i : ℕ) * n + j < m * n := index_lt i j
  have hi : Fin.divNat ⟨i * n + j, hlt⟩ = i := Fin.ext (index_div i j)
  have hj : Fin.modNat ⟨i * n + j, hlt⟩ = j := Fin.ext (index_mod i j)
  simp [ofMatrix, entry, Array.getD, hlt, hi, hj]

/-- Every position of a matrix is that of a row and a column. -/
theorem exists_index {k : ℕ} (h : k < m * n) : ∃ (i : Fin m) (j : Fin n), k = i * n + j := by
  have hn : 0 < n := by
    rcases Nat.eq_zero_or_pos n with rfl | hn
    · simp at h
    · exact hn
  refine ⟨⟨k / n, Nat.div_lt_of_lt_mul (by rwa [mul_comm])⟩, ⟨k % n, Nat.mod_lt k hn⟩, ?_⟩
  exact (Nat.div_add_mod' k n).symm

/-- A tensor with two axes is the matrix of its entries. -/
theorem eq_ofMatrix {t : Tensor α} {M : Matrix (Fin m) (Fin n) α} (hs : t.shape = [m, n])
    (h : ∀ (i : Fin m) (j : Fin n), t.entry (i * n + j) = M i j) : t = ofMatrix M := by
  refine ext_entry hs fun k hk => ?_
  obtain ⟨i, j, rfl⟩ := exists_index (m := m) (n := n) (by simpa [hs] using hk)
  rw [h, entry_ofMatrix]

@[simp] theorem toMatrix_ofMatrix (M : Matrix (Fin m) (Fin n) α) :
    toMatrix m n (ofMatrix M) = M := by
  ext i j
  exact entry_ofMatrix M i j

theorem ofMatrix_toMatrix {t : Tensor α} (hs : t.shape = [m, n]) :
    ofMatrix (toMatrix m n t) = t :=
  (eq_ofMatrix hs fun _ _ => rfl).symm

/-- Rows and columns change places. -/
@[simp] theorem transpose_ofMatrix (M : Matrix (Fin m) (Fin n) α) :
    (ofMatrix M).transpose = ofMatrix Mᵀ := by
  refine eq_ofMatrix rfl fun j i => ?_
  have hk : (j : ℕ) * m + i < n * m := index_lt j i
  rw [transpose, entry_ofFn_of_lt (by simpa using hk)]
  simp [index_div, Nat.mod_one, Nat.mod_eq_of_lt i.isLt]

theorem map_ofVector {β : Type} [Zero β] (f : α → β) (v : Fin n → α) :
    (ofVector v).map f = ofVector fun i => f (v i) :=
  eq_ofVector rfl fun i => by rw [entry_map f (by simp), entry_ofVector]

/-- The vector of a list of entries. -/
theorem ofList_ofFn (v : Fin n → α) : ofList (List.ofFn v) = ofVector v :=
  eq_ofVector (by simp) fun i => by simp [entry_ofList]

/-- The entries of a vector, in their order. -/
theorem toList_ofVector (v : Fin n → α) : (ofVector v).toList = List.ofFn v := by
  rw [← ofList_ofFn, toList_ofList]

/-- A tensor of any shape, as the vector of its entries. -/
theorem flatten_of_size {t : Tensor α} (h : t.size = n) : t.flatten = ofVector (toVector n t) :=
  eq_ofVector (congrArg (fun k => [k]) h) fun _ => rfl

theorem flatten_of_shape {t : Tensor α} (h : t.shape = [n]) : t.flatten = t :=
  (flatten_of_size (by simp [h])).trans (ofVector_toVector h)

@[simp] theorem flatten_ofVector (v : Fin n → α) : (ofVector v).flatten = ofVector v :=
  flatten_of_shape (shape_ofVector v)

theorem full_vector (a : α) : full [n] a = ofVector fun _ : Fin n => a :=
  eq_ofVector rfl fun _ => entry_full a (by simp)

end Entries

/-! ### Entrywise operations -/

section Exact

variable {K : Type} [ExactField K] {m n k : ℕ}

/-- An entrywise operation that is defined everywhere succeeds. -/
theorem combineSame_of_defined (traps : Traps) {op : Operation} (a : Tensor K) {b : Tensor K}
    (h : ∀ i, i < Shape.size a.shape → op.Defined (b.entry i)) :
    combineSame traps op a b = .ok (zipEntries op.eval a b) := by
  refine Traps.guard_of_forall _ _ _ _ _ fun e => ?_
  rw [List.any_eq_false]
  intro i hi
  have hlt : i < Shape.size a.shape := by simpa using hi
  simp [e.raisedBy_of_defined (h i hlt)]

theorem zipEntries_vectors (f : K → K → K) (u v : Fin n → K) :
    zipEntries f (ofVector u) (ofVector v) = ofVector fun i => f (u i) (v i) :=
  eq_ofVector rfl fun i => by rw [entry_zipEntries _ _ _ (by simp)]; simp

theorem zipEntries_matrices (f : K → K → K) (M N : Matrix (Fin m) (Fin n) K) :
    zipEntries f (ofMatrix M) (ofMatrix N) = ofMatrix (of fun i j => f (M i j) (N i j)) :=
  eq_ofMatrix rfl fun i j => by
    rw [entry_zipEntries _ _ _ (by simpa using index_lt i j)]; simp

theorem combine_vectors (traps : Traps) {op : Operation} (u : Fin n → K) {v : Fin n → K}
    (h : ∀ i, op.Defined (v i)) :
    combine traps op (ofVector u) (ofVector v) = .ok (ofVector fun i => op.eval (u i) (v i)) := by
  have hs : (ofVector u).shape = (ofVector v).shape := rfl
  have hd : ∀ i, i < Shape.size (ofVector u).shape → op.Defined ((ofVector v).entry i) := by
    intro i hi
    have hi' : i < n := by simpa using hi
    exact (entry_ofVector v ⟨i, hi'⟩).symm ▸ h ⟨i, hi'⟩
  rw [combine_of_shape_eq traps op hs, combineSame_of_defined traps _ hd, zipEntries_vectors]

theorem combine_matrices (traps : Traps) {op : Operation} (M : Matrix (Fin m) (Fin n) K)
    {N : Matrix (Fin m) (Fin n) K} (h : ∀ i j, op.Defined (N i j)) :
    combine traps op (ofMatrix M) (ofMatrix N) =
      .ok (ofMatrix (of fun i j => op.eval (M i j) (N i j))) := by
  have hs : (ofMatrix M).shape = (ofMatrix N).shape := rfl
  have hd : ∀ i, i < Shape.size (ofMatrix M).shape → op.Defined ((ofMatrix N).entry i) := by
    intro k hk
    obtain ⟨i, j, rfl⟩ := exists_index (m := m) (n := n) (by simpa using hk)
    exact (entry_ofMatrix N i j).symm ▸ h i j
  rw [combine_of_shape_eq traps op hs, combineSame_of_defined traps _ hd, zipEntries_matrices]

/-! ### Stretching -/

/-- Tensors are stretched to their common shape before they are combined. -/
theorem combine_of_common (traps : Traps) (op : Operation) {a b : Tensor K} {s : List ℕ}
    (h : Shape.common? a.shape b.shape = some s) :
    combine traps op a b = combine traps op (a.stretch s) (b.stretch s) := by
  have hs : (a.stretch s).shape = (b.stretch s).shape := by simp
  rw [combine_of_shape_eq traps op hs, combine, h]

theorem stretch_vector (v : Fin n → K) : (ofVector v).stretch [n] = ofVector v := stretch_shape _

theorem stretch_matrix (M : Matrix (Fin m) (Fin n) K) :
    (ofMatrix M).stretch [m, n] = ofMatrix M := stretch_shape _

/-- A single number stretched to a vector. -/
theorem stretch_scalar_vector (a : K) : (scalar a).stretch [n] = ofVector fun _ : Fin n => a :=
  eq_ofVector (by simp) fun i => entry_stretch_scalar a (by simp)

/-- A single number stretched to a matrix. -/
theorem stretch_scalar_matrix (a : K) :
    (scalar a).stretch [m, n] = ofMatrix (of fun (_ : Fin m) (_ : Fin n) => a) :=
  eq_ofMatrix (by simp) fun i j => entry_stretch_scalar a (by simpa using index_lt i j)

/-- A vector stretched to a matrix stands in every row. -/
theorem stretch_vector_matrix (v : Fin n → K) :
    (ofVector v).stretch [m, n] = ofMatrix (of fun (_ : Fin m) j => v j) := by
  refine eq_ofMatrix (by simp) fun i j => ?_
  have hs : (ofVector v).shape ≠ [m, n] := by simp
  have hj : (if n = 1 then 0 else (j : ℕ)) = j := by
    split <;> omega
  have hsource : Shape.source [m, n] [n] (i * n + j) = j := by
    simpa [Shape.source, Nat.mod_one, Nat.mod_eq_of_lt j.isLt] using hj
  rw [stretch, if_neg hs, entry_ofFn_of_lt (by simpa using index_lt i j)]
  exact (congrArg (ofVector v).entry hsource).trans (entry_ofVector v j)

theorem combine_scalar_vector (traps : Traps) {op : Operation} (a : K) {v : Fin n → K}
    (h : ∀ i, op.Defined (v i)) :
    combine traps op (scalar a) (ofVector v) = .ok (ofVector fun i => op.eval a (v i)) := by
  have hc : Shape.common? (scalar a).shape (ofVector v).shape = some [n] := by
    simp [Shape.common?, Shape.pad, Shape.commonLengths?]
  rw [combine_of_common traps op hc, stretch_scalar_vector, stretch_vector,
    combine_vectors traps _ h]

theorem combine_vector_scalar (traps : Traps) {op : Operation} (v : Fin n → K) {a : K}
    (h : op.Defined a) :
    combine traps op (ofVector v) (scalar a) = .ok (ofVector fun i => op.eval (v i) a) := by
  have hc : Shape.common? (ofVector v).shape (scalar a).shape = some [n] := by
    simp [Shape.common?, Shape.pad, Shape.commonLengths?]
  rw [combine_of_common traps op hc, stretch_scalar_vector, stretch_vector,
    combine_vectors traps _ fun _ => h]

theorem combine_scalar_matrix (traps : Traps) {op : Operation} (a : K)
    {M : Matrix (Fin m) (Fin n) K} (h : ∀ i j, op.Defined (M i j)) :
    combine traps op (scalar a) (ofMatrix M) =
      .ok (ofMatrix (of fun i j => op.eval a (M i j))) := by
  have hc : Shape.common? (scalar a).shape (ofMatrix M).shape = some [m, n] := by
    simp [Shape.common?, Shape.pad, Shape.commonLengths?, List.replicate_succ]
  rw [combine_of_common traps op hc, stretch_scalar_matrix, stretch_matrix,
    combine_matrices traps _ h]
  rfl

theorem combine_matrix_vector (traps : Traps) {op : Operation} (M : Matrix (Fin m) (Fin n) K)
    {v : Fin n → K} (h : ∀ j, op.Defined (v j)) :
    combine traps op (ofMatrix M) (ofVector v) =
      .ok (ofMatrix (of fun i j => op.eval (M i j) (v j))) := by
  have hc : Shape.common? (ofMatrix M).shape (ofVector v).shape = some [m, n] := by
    simp [Shape.common?, Shape.pad, Shape.commonLengths?]
  rw [combine_of_common traps op hc, stretch_vector_matrix, stretch_matrix,
    combine_matrices traps M (N := of fun _ j => v j) fun _ j => h j]
  rfl

/-! ### The four operations -/

section Operations

variable (traps : Traps) (u v : Fin n → K) (M N : Matrix (Fin m) (Fin n) K) (a b : K)

@[simp] theorem add_vectors : add traps (ofVector u) (ofVector v) = .ok (ofVector (u + v)) :=
  combine_vectors traps u fun _ => Operation.defined_of_ne (by decide) _

@[simp] theorem sub_vectors : sub traps (ofVector u) (ofVector v) = .ok (ofVector (u - v)) :=
  combine_vectors traps u fun _ => Operation.defined_of_ne (by decide) _

@[simp] theorem mul_vectors : mul traps (ofVector u) (ofVector v) = .ok (ofVector (u * v)) :=
  combine_vectors traps u fun _ => Operation.defined_of_ne (by decide) _

@[simp] theorem mul_scalar_vector :
    mul traps (scalar a) (ofVector v) = .ok (ofVector (a • v)) :=
  combine_scalar_vector traps a fun _ => Operation.defined_of_ne (by decide) _

@[simp] theorem sub_scalar_vector :
    sub traps (scalar a) (ofVector v) = .ok (ofVector fun i => a - v i) :=
  combine_scalar_vector traps a fun _ => Operation.defined_of_ne (by decide) _

@[simp] theorem mul_vector_scalar :
    mul traps (ofVector v) (scalar a) = .ok (ofVector (a • v)) := by
  rw [mul, combine_vector_scalar traps v (Operation.defined_of_ne (by decide) a)]
  exact congrArg (fun w => Except.ok (ofVector w)) (funext fun i => mul_comm (v i) a)

@[simp] theorem add_matrices : add traps (ofMatrix M) (ofMatrix N) = .ok (ofMatrix (M + N)) :=
  combine_matrices traps M fun _ _ => Operation.defined_of_ne (by decide) _

@[simp] theorem mul_scalar_matrix :
    mul traps (scalar a) (ofMatrix M) = .ok (ofMatrix (a • M)) :=
  combine_scalar_matrix traps a fun _ _ => Operation.defined_of_ne (by decide) _

/-- The columns of a matrix multiplied by the entries of a vector. -/
@[simp] theorem mul_matrix_vector :
    mul traps (ofMatrix M) (ofVector v) = .ok (ofMatrix (M * diagonal v)) := by
  rw [mul, combine_matrix_vector traps M fun j => Operation.defined_of_ne (by decide) (v j)]
  refine congrArg (fun N => Except.ok (ofMatrix N)) ?_
  ext i j
  rw [mul_diagonal]
  rfl

theorem combine_scalars {op : Operation} (h : op.Defined b) :
    combine traps op (scalar a) (scalar b) = .ok (scalar (op.eval a b)) := by
  rw [combine_scalar, Traps.combine_of_defined traps a h]
  rfl

@[simp] theorem add_scalars : add traps (scalar a) (scalar b) = .ok (scalar (a + b)) :=
  combine_scalars traps a b (Operation.defined_of_ne (by decide) _)

@[simp] theorem sub_scalars : sub traps (scalar a) (scalar b) = .ok (scalar (a - b)) :=
  combine_scalars traps a b (Operation.defined_of_ne (by decide) _)

@[simp] theorem mul_scalars : mul traps (scalar a) (scalar b) = .ok (scalar (a * b)) :=
  combine_scalars traps a b (Operation.defined_of_ne (by decide) _)

variable {v b}

theorem div_vectors (h : ∀ i, v i ≠ 0) :
    div traps (ofVector u) (ofVector v) = .ok (ofVector (u / v)) :=
  combine_vectors traps u fun i _ => h i

/-- Without traps a division succeeds whatever it divides by. -/
theorem div_off_vectors (v : Fin n → K) :
    div .off (ofVector u) (ofVector v) = .ok (ofVector (u / v)) := by
  have hs : (ofVector u).shape = (ofVector v).shape := rfl
  rw [div, combine_of_shape_eq .off .divide hs, combineSame_off, zipEntries_vectors]
  rfl

theorem div_off_vector_scalar (b : K) :
    div .off (ofVector u) (scalar b) = .ok (ofVector fun i => u i / b) := by
  have hc : Shape.common? (ofVector u).shape (scalar b).shape = some [n] := by
    simp [Shape.common?, Shape.pad, Shape.commonLengths?]
  rw [div, combine_of_common .off .divide hc, stretch_scalar_vector, stretch_vector]
  exact div_off_vectors u _

theorem div_vector_scalar (h : b ≠ 0) :
    div traps (ofVector u) (scalar b) = .ok (ofVector (b⁻¹ • u)) := by
  rw [div, combine_vector_scalar traps u fun _ => h]
  exact congrArg (fun w => Except.ok (ofVector w)) (funext fun i => div_eq_inv_mul (u i) b)

theorem div_scalars (h : b ≠ 0) : div traps (scalar a) (scalar b) = .ok (scalar (a / b)) :=
  combine_scalars traps a b fun _ => h

/-- A trapped division of single numbers by zero. -/
theorem div_scalars_zero :
    div .on (scalar a) (scalar (0 : K)) =
      .error (.breakdown (.trapped .zeroDivide .divide true)) := by
  rw [div, combine_scalar]
  simp [Traps.combine, Traps.guard, Exception.all, Exception.raisedBy_exact, Except.map]

/-- A trapped division of a vector with entries by zero. -/
theorem div_vector_scalar_zero (hn : 0 < n) :
    div .on (ofVector u) (scalar (0 : K)) =
      .error (.breakdown (.trapped .zeroDivide .divide false)) := by
  have hc : Shape.common? (ofVector u).shape (scalar (0 : K)).shape = some [n] := by
    simp [Shape.common?, Shape.pad, Shape.commonLengths?]
  have hs : (ofVector u).shape = (ofVector fun _ : Fin n => (0 : K)).shape := rfl
  have hfirst : (ofVector fun _ : Fin n => (0 : K)).entry 0 = 0 :=
    entry_ofVector (fun _ => 0) ⟨0, hn⟩
  have hany : ∃ k < n, (ofVector fun _ : Fin n => (0 : K)).entry k = 0 := ⟨0, hn, hfirst⟩
  rw [div, combine_of_common .on .divide hc, stretch_scalar_vector, stretch_vector,
    combine_of_shape_eq .on .divide hs, combineSame]
  simp [Traps.guard, Exception.all, Exception.raisedBy_exact, hany]

end Operations

@[simp] theorem neg_vector (v : Fin n → K) : (ofVector v).neg = ofVector (-v) :=
  map_ofVector _ v

@[simp] theorem isFinite_exact (t : Tensor K) : t.isFinite = true := by
  simp [isFinite, all]

/-! ### Products -/

/-- An inner product raises nothing. -/
theorem Pairing.raises_exact (p : Pairing) (a b : Tensor K) (e : Exception) :
    p.raises a b e = false := by
  simp [Pairing.raises]

theorem Contraction.raises_exact (c : Contraction) (a b : Tensor K) (e : Exception) :
    c.raises a b e = false := by
  simp [Contraction.raises, Pairing.raises_exact]

/-- Tensors whose shapes fit are multiplied. -/
theorem matMul_of_shapes (traps : Traps) {a b : Tensor K} {c : Contraction}
    (h : Contraction.ofShapes? a.shape b.shape = some c) :
    matMul traps a b = .ok (c.eval a b) := by
  rw [matMul, h]
  exact Traps.guard_of_forall _ _ _ _ _ (c.raises_exact a b)

@[simp] theorem matMul_matrix_vector (traps : Traps) (M : Matrix (Fin m) (Fin n) K)
    (v : Fin n → K) :
    matMul traps (ofMatrix M) (ofVector v) = .ok (ofVector (M *ᵥ v)) := by
  have hc : Contraction.ofShapes? (ofMatrix M).shape (ofVector v).shape =
      some (.matrixVector m n) := by
    simp [Contraction.ofShapes?]
  rw [matMul_of_shapes traps hc]
  refine congrArg Except.ok (eq_ofVector rfl fun i => ?_)
  rw [entry_matrixVector _ _ i.isLt, Scalar.sum_exact]
  simp [mulVec, dotProduct]

/-- The inner product of all pairs of two vectors. -/
theorem Pairing.dot_vectors (u v : Fin n → K) :
    (Pairing.ofLength n).dot (ofVector u) (ofVector v) = u ⬝ᵥ v := by
  rw [Pairing.dot, Scalar.sum_exact]
  refine Finset.sum_congr rfl fun i _ => ?_
  simpa [Pairing.ofLength, Pairing.leftEntry, Pairing.rightEntry] using
    congrArg₂ (· * ·) (entry_ofVector u i) (entry_ofVector v i)

@[simp] theorem matMul_vectors (traps : Traps) (u v : Fin n → K) :
    matMul traps (ofVector u) (ofVector v) = .ok (scalar (u ⬝ᵥ v)) := by
  rw [matMul_vector traps rfl rfl,
    Traps.guard_of_forall _ _ _ _ _ (Pairing.raises_exact _ _ _), Pairing.dot_vectors]
  rfl

@[simp] theorem matMul_matrices (traps : Traps) (M : Matrix (Fin m) (Fin n) K)
    (N : Matrix (Fin n) (Fin k) K) :
    matMul traps (ofMatrix M) (ofMatrix N) = .ok (ofMatrix (M * N)) := by
  have hc : Contraction.ofShapes? (ofMatrix M).shape (ofMatrix N).shape =
      some (.matrices m n k) := by
    simp [Contraction.ofShapes?]
  rw [matMul_of_shapes traps hc]
  refine congrArg Except.ok (eq_ofMatrix rfl fun i j => ?_)
  have hlt : (i : ℕ) * k + j < Shape.size (Contraction.matrices m n k).shape := by
    simpa [Contraction.matrices] using index_lt i j
  rw [Contraction.entry_eval _ _ _ hlt, Pairing.dot, Scalar.sum_exact, mul_apply]
  refine Finset.sum_congr rfl fun l _ => ?_
  have hl : (j : ℕ) + l * k = l * k + j := add_comm _ _
  simpa [Contraction.matrices, Pairing.leftEntry, Pairing.rightEntry, index_div,
    Nat.mod_eq_of_lt j.isLt, hl] using
    congrArg₂ (· * ·) (entry_ofMatrix M i l) (entry_ofMatrix N l j)

/-- The product of two vectors as a number. -/
@[simp] theorem dot_vectors (traps : Traps) (u v : Fin n → K) :
    dot traps (ofVector u) (ofVector v) = .ok (u ⬝ᵥ v) := by
  simp [dot]

@[simp] theorem norm_vector (traps : Traps) (v : Fin n → K) :
    norm traps (ofVector v) = .ok (ExactField.norm v) := by
  have hsize : (ofVector v).size = n := by simp
  rw [norm, Traps.guard_of_forall _ _ _ _ _ (Pairing.raises_exact _ _ _), hsize,
    Pairing.dot_vectors]
  rfl

end Exact

end SelfDual.Tensor
