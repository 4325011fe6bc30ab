import SelfDual.Cholesky
import SelfDual.Tensor.Product
/-!
**The normal equations.**

A step of the method solves saddle-point systems with a diagonal block.  Elimination leads to the
matrix `A diag(d) Aᵀ`, which is factorized once and serves for every right-hand side of the step.

Main definitions:

* `symmetrize` — the symmetric part of a matrix;
* `scalingRatio` — the diagonal `x / z`, refused unless finite and positive;
* `normalMatrix` — `A diag(d) Aᵀ`;
* `Factorization`, `factorize` — the factorization of a square matrix by a backend;
* `factorizeNamed` — the same for the name of a backend;
* `Factorization.solve` — one solve with it;
* `saddleSolve` — the solution of the saddle-point system.
-/

set_option autoImplicit false

namespace SelfDual

variable {R : Type} [Scalar R]

/-! ### The matrix -/

/-- The symmetric part of a tensor. -/
def symmetrize (traps : Traps) (t : Tensor R) : Except Error (Tensor R) := do
  Tensor.mul traps (.scalar Scalar.half) (← Tensor.add traps t t.transpose)

/-- The ratios `x / z`.  They are formed without traps; one that is not finite and positive is a
breakdown. -/
def scalingRatio (x z : Tensor R) : Except Error (Tensor R) := do
  let ratio ← Tensor.div .off x z
  if ratio.isFinite && !ratio.any (· ≤ 0) then
    return ratio
  else
    throw (.breakdown .ratioNotPositive)

/-- The matrix `A diag(d) Aᵀ`. -/
def normalMatrix (traps : Traps) (A d : Tensor R) : Except Error (Tensor R) := do
  symmetrize traps (← Tensor.matMul traps (← Tensor.mul traps A d) A.transpose)

/-! ### The factorization -/

/-- A factorized matrix. -/
structure Factorization (R : Type) where
  backend : Backend
  order : Nat
  rows : List (Cholesky.Row R)

/-- How a backend factorizes.  The device divides, and refuses a pivot that is not positive; the
host multiplies by the reciprocal, and lets a NaN pass. -/
def Backend.variant : Backend → Cholesky.Variant R
  | host => ⟨fun pivot => pivot ≤ 0, fun a d => a * (1 / d)⟩
  | device => ⟨fun pivot => !decide (0 < pivot), fun a d => a / d⟩

/-- The lower triangle of a `k × k` matrix factorized. -/
def factorizeSquare (backend : Backend) (matrix : Tensor R) (k : Nat) :
    Except Error (Factorization R) :=
  if k = 0 then .ok ⟨backend, 0, []⟩
  else if !matrix.isFinite then .error (.breakdown .matrixNotFinite)
  else
    match Cholesky.factor backend.variant (fun i j => matrix.entry (i * k + j)) k with
    | .ok rows => .ok ⟨backend, k, rows⟩
    | .error order => .error (.breakdown (.notPositiveDefinite backend order))

/-- Factorizes a square matrix. -/
def factorize (backend : Backend) (matrix : Tensor R) : Except Error (Factorization R) :=
  match matrix.shape with
  | [m, n] => if m = n then factorizeSquare backend matrix n else .error (.notSquare [m, n])
  | shape => .error (.notSquare shape)

/-- A way to factorize a matrix. -/
abbrev Factorizer (R : Type) := Tensor R → Except Error (Factorization R)

/-- Factorizes by the backend of a name, which is looked up when the matrix is there. -/
def factorizeNamed (name : Value) : Factorizer R := fun matrix =>
  match Backend.ofValue? name with
  | some backend => factorize backend matrix
  | none => .error (.unknownBackend name)

/-- A backend is as good as its name. -/
@[simp] theorem factorizeNamed_name (backend : Backend) :
    factorizeNamed (.text backend.name) = (factorize backend : Factorizer R) := by
  funext matrix
  simp [factorizeNamed]

namespace Factorization

/-- The solution for the `n` entries of a tensor from position `i` on in steps of `di`. -/
def solveEntries (f : Factorization R) (r : Tensor R) (i di : Nat) : List R :=
  Cholesky.solve f.backend.variant f.rows ((List.range f.order).map fun k => r.entry (i + k * di))

/-- The solutions for the columns of a stack of matrices with `p` columns each, in the same
places. -/
def solveColumns (f : Factorization R) (r : Tensor R) (p : Nat) : Tensor R :=
  let block := f.order * p
  let columns := (List.range (r.size / f.order)).map fun c =>
    Tensor.ofList (f.solveEntries r (c / p * block + c % p) p)
  .ofFn r.shape fun k =>
    (columns.getD (k / block * p + k % p) (.full [0] 0)).entry (k % block / p)

/-- Solves for one right-hand side; the host also takes the columns of a matrix or of a stack of
matrices.  A matrix of order zero has the empty solution whatever the right-hand side. -/
def solve (f : Factorization R) (r : Tensor R) : Except Error (Tensor R) :=
  if f.order = 0 then .ok (.full [0] 0)
  else
    match f.backend, r.shape with
    | .host, [n] =>
      if n = f.order then .ok (.ofList (f.solveEntries r 0 1)) else .error .shapesDiffer
    | .host, shape =>
      match Tensor.splitMatrix? shape with
      | some (_, n, p) => if n = f.order then .ok (f.solveColumns r p) else .error .shapesDiffer
      | none => .error .rightSideAxes
    | .device, _ =>
      if r.size = f.order then .ok (.ofList (f.solveEntries r 0 1)) else .error .rightSideLength

end Factorization

/-! ### Saddle-point systems -/

/-- The solution `(u, v)` of `-u / d + Aᵀ v = r₁`, `A u = r₂`: first `v` from the normal equations
`A diag(d) Aᵀ v = r₂ + A (d r₁)`, then `u = d (Aᵀ v - r₁)`. -/
def saddleSolve (traps : Traps) (f : Factorization R) (A d r₁ r₂ : Tensor R) :
    Except Error (Tensor R × Tensor R) := do
  let rhs ← Tensor.add traps r₂ (← Tensor.matMul traps A (← Tensor.mul traps d r₁))
  let v ← f.solve rhs
  let u ← Tensor.mul traps d (← Tensor.sub traps (← Tensor.matMul traps A.transpose v) r₁)
  if u.isFinite && v.isFinite then
    return (u, v)
  else
    throw (.breakdown .solutionNotFinite)

end SelfDual
