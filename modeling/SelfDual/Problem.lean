import SelfDual.Tensor.Arithmetic
import SelfDual.Tensor.Nested
/-!
**Linear programs in standard form.**

A linear program asks for `x ≥ 0` with `A x = b` that makes `c · x` least.  The data are given as
tensors of any shape and are accepted if they fit together and are finite.  That the rows of `A`
are independent is not asked here; dependent rows show as a breakdown of a solve.

Main definitions:

* `Problem` — an accepted linear program;
* `Problem.accept` — the acceptance of data;
* `Problem.ofValues` — the same for nested lists.
-/

set_option autoImplicit false

namespace SelfDual

/-- A linear program with `m` constraints and `n` variables. -/
structure Problem (R : Type) [Scalar R] where
  m : Nat
  n : Nat
  c : Tensor R
  A : Tensor R
  b : Tensor R
  n_pos : 0 < n
  shape_c : c.shape = [n]
  shape_A : A.shape = [m, n]
  shape_b : b.shape = [m]
  finite_c : c.isFinite = true
  finite_A : A.isFinite = true
  finite_b : b.isFinite = true

namespace Problem

variable {R : Type} [Scalar R]

/-- The constraint matrix as given; an empty list is a matrix without rows. -/
def asMatrix (n : Nat) (A : Tensor R) : Tensor R :=
  if A.shape = [0] then Tensor.ofFn [0, n] fun _ => 0 else A

/-- The length of a vector. -/
def vectorLength (field : String) (t : Tensor R) : Except Error { n : Nat // t.shape = [n] } :=
  match t.shape with
  | [n] => .ok ⟨n, rfl⟩
  | shape => .error (.notVector field shape)

/-- The lengths of the two axes of a matrix. -/
def matrixLengths (field : String) (t : Tensor R) :
    Except Error { l : Nat × Nat // t.shape = [l.1, l.2] } :=
  match t.shape with
  | [m, n] => .ok ⟨(m, n), rfl⟩
  | shape => .error (.notMatrix field shape)

/-- Accepts data that form a linear program; else the first fault found, in the order of the
tests. -/
def accept (c A b : Tensor R) : Except Error (Problem R) := do
  let ⟨n, shape_c⟩ ← vectorLength "c" c
  let ⟨n_pos⟩ ← require (0 < n) .noVariables
  let A := asMatrix n A
  let ⟨(m, columns), hA⟩ ← matrixLengths "A" A
  let ⟨rows, hb⟩ ← vectorLength "b" b
  let ⟨hn⟩ ← require (columns = n) (.columnsDiffer columns n)
  let ⟨hm⟩ ← require (m = rows) (.rowsDiffer m rows)
  let ⟨finite_c⟩ ← require (c.isFinite = true) (.entriesNotFinite "c")
  let ⟨finite_A⟩ ← require (A.isFinite = true) (.entriesNotFinite "A")
  let ⟨finite_b⟩ ← require (b.isFinite = true) (.entriesNotFinite "b")
  return {
    m, n, c, A, b, n_pos, shape_c, finite_c, finite_A, finite_b
    shape_A := by rw [hA, hn]
    shape_b := by rw [hb, hm] }

/-- Accepts nested lists.  All three are read before the first test. -/
def ofValues (c A b : Value) : Except Error (Problem Float) := do
  let c ← Tensor.ofValue c
  let A ← Tensor.ofValue A
  let b ← Tensor.ofValue b
  accept c A b

end Problem

end SelfDual
