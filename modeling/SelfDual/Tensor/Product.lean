import SelfDual.Tensor.Arithmetic
/-!
**Products and norms.**

The product of two tensors sums over the last axis of the first and the last but one of the second;
for vectors and matrices these are the familiar products.  Tensors with more axes are multiplied
matrix by matrix, their leading axes stretched to a common shape.

The shapes of two tensors settle which pairs of entries each entry of the product multiplies.  An
exception of a product is one of any multiplication or addition in it.

Main definitions:

* `Tensor.Pairing` — the pairs of entries of an inner product, with `Pairing.dot`;
* `Tensor.Contraction` — the shape of a product with the pairs for each of its entries;
* `Tensor.Contraction.ofShapes?` — the one that belongs to two shapes;
* `Tensor.matMul` — the product;
* `Tensor.dot` — the product that is a single number;
* `Tensor.norm` — the Euclidean norm of a vector;
* `Tensor.maxNorm` — the greatest absolute value of a vector, the greatest row sum of a matrix.

Main results:

* `Tensor.entry_matrixVector` — an entry of a matrix times a vector is an inner product;
* `Tensor.matMul_vector` — the product of two vectors is their inner product.
-/

set_option autoImplicit false

namespace SelfDual.Tensor

variable {R : Type} [Scalar R]

/-! ### Inner products -/

/-- Whether the sum `f 0 * g 0 + … + f (n - 1) * g (n - 1)`, added from the left, raises the
exception, in a product or in an addition. -/
def sumRaises (e : Exception) (f g : Nat → R) : Nat → Bool
  | 0 => false
  | n + 1 =>
    let sum := Scalar.sum n fun k => f k * g k
    let term := f n * g n
    sumRaises e f g n || e.raisedBy .multiply (f n) (g n) term ||
      e.raisedBy .add sum term (sum + term)

/-- The pairs of entries that an inner product multiplies: `count` of them, those of the first
tensor from position `left` on in steps of `leftStep`, those of the second from `right` on in steps
of `rightStep`. -/
structure Pairing where
  count : Nat
  left : Nat
  leftStep : Nat
  right : Nat
  rightStep : Nat

namespace Pairing

/-- The first entry of a pair. -/
def leftEntry (p : Pairing) (a : Tensor R) (k : Nat) : R :=
  a.entry (p.left + k * p.leftStep)

/-- The second entry of a pair. -/
def rightEntry (p : Pairing) (b : Tensor R) (k : Nat) : R :=
  b.entry (p.right + k * p.rightStep)

/-- The sum of the products of the pairs. -/
def dot (p : Pairing) (a b : Tensor R) : R :=
  Scalar.sum p.count fun k => p.leftEntry a k * p.rightEntry b k

/-- Whether the inner product raises the exception.  What is not finite stays so under additions,
hence a finite inner product has raised none. -/
def raises (p : Pairing) (a b : Tensor R) (e : Exception) : Bool :=
  !Scalar.isFinite (p.dot a b) && sumRaises e (p.leftEntry a) (p.rightEntry b) p.count

/-- All pairs of two vectors of length `n`. -/
def ofLength (n : Nat) : Pairing := ⟨n, 0, 1, 0, 1⟩

end Pairing

/-! ### Contractions -/

/-- The shape of a product, and the pairs for each of its positions. -/
structure Contraction where
  shape : List Nat
  pairing : Nat → Pairing

/-- The stack shape and the two lengths of the matrices of a tensor with two axes at least. -/
def splitMatrix? (shape : List Nat) : Option (List Nat × Nat × Nat) :=
  match shape.reverse with
  | n :: m :: stack => some (stack.reverse, m, n)
  | _ => none

namespace Contraction

/-- The inner product of two vectors. -/
def vectors (n : Nat) : Contraction := ⟨[], fun _ => .ofLength n⟩

/-- The product of an `m × n` matrix and a vector. -/
def matrixVector (m n : Nat) : Contraction := ⟨[m], fun i => ⟨n, i * n, 1, 0, 1⟩⟩

/-- The product of a vector and an `n × p` matrix. -/
def vectorMatrix (n p : Nat) : Contraction := ⟨[p], fun j => ⟨n, 0, 1, j, p⟩⟩

/-- The product of an `m × n` and an `n × p` matrix. -/
def matrices (m n p : Nat) : Contraction := ⟨[m, p], fun k => ⟨n, k / p * n, 1, k % p, p⟩⟩

/-- The products of stacks of `m × n` and `n × p` matrices, the stacks of shapes `s` and `t`
stretched to the shape `stack`. -/
def stacked (stack s t : List Nat) (m n p : Nat) : Contraction where
  shape := stack ++ [m, p]
  pairing k :=
    let place := k / (m * p)
    let i := k % (m * p) / p
    let j := k % p
    ⟨n, Shape.source stack s place * (m * n) + i * n, 1,
      Shape.source stack t place * (n * p) + j, p⟩

/-- The contraction of shapes with many axes; a vector is taken as a single row or column, whose
axis is missing from the result. -/
def ofStacked? (left right : List Nat) : Option Contraction := do
  let rowShape := if left.length = 1 then 1 :: left else left
  let columnShape := if right.length = 1 then right ++ [1] else right
  let (s, m, n) ← splitMatrix? rowShape
  let (t, n', p) ← splitMatrix? columnShape
  if n = n' then
    let stack ← Shape.common? s t
    let c := stacked stack s t m n p
    if left.length = 1 then
      return { c with shape := stack ++ [p] }
    else if right.length = 1 then
      return { c with shape := stack ++ [m] }
    else
      return c
  else none

/-- The contraction that multiplies tensors of two shapes, if the shapes fit. -/
def ofShapes? : List Nat → List Nat → Option Contraction
  | [m], [n] => if m = n then some (vectors n) else none
  | [m, n], [n'] => if n = n' then some (matrixVector m n) else none
  | [n], [n', p] => if n = n' then some (vectorMatrix n p) else none
  | [m, n], [n', p] => if n = n' then some (matrices m n p) else none
  | left, right => ofStacked? left right

/-- The product of two tensors. -/
def eval (c : Contraction) (a b : Tensor R) : Tensor R :=
  ofFn c.shape fun k => (c.pairing k).dot a b

@[simp] theorem shape_eval (c : Contraction) (a b : Tensor R) : (c.eval a b).shape = c.shape := rfl

/-- An entry of a product is an inner product. -/
theorem entry_eval (c : Contraction) (a b : Tensor R) {k : Nat} (h : k < Shape.size c.shape) :
    (c.eval a b).entry k = (c.pairing k).dot a b :=
  entry_ofFn_of_lt h

/-- Whether the product of two tensors raises the exception. -/
def raises (c : Contraction) (a b : Tensor R) (e : Exception) : Bool :=
  (List.range (Shape.size c.shape)).any fun k => (c.pairing k).raises a b e

end Contraction

/-! ### The product -/

/-- The product of two tensors. -/
def matMul (traps : Traps) (a b : Tensor R) : Except Error (Tensor R) :=
  match Contraction.ofShapes? a.shape b.shape with
  | none => .error .shapesDiffer
  | some c => traps.guard .product false (c.raises a b) (c.eval a b)

/-- An entry of a matrix times a vector is the inner product of a row with the vector. -/
theorem entry_matrixVector (a x : Tensor R) {m n i : Nat} (h : i < m) :
    ((Contraction.matrixVector m n).eval a x).entry i =
      Scalar.sum n fun k => a.entry (i * n + k) * x.entry k := by
  rw [Contraction.entry_eval _ _ _ (by simpa [Contraction.matrixVector] using h)]
  simp [Contraction.matrixVector, Pairing.dot, Pairing.leftEntry, Pairing.rightEntry]

/-- The product of two vectors is their inner product. -/
theorem matMul_vector (traps : Traps) {a b : Tensor R} {n : Nat} (ha : a.shape = [n])
    (hb : b.shape = [n]) :
    matMul traps a b =
      (traps.guard .product false ((Pairing.ofLength n).raises a b)
        ((Pairing.ofLength n).dot a b)).map scalar := by
  have hr : (Contraction.vectors n).raises a b = (Pairing.ofLength n).raises a b := by
    funext e
    simp [Contraction.raises, Contraction.vectors, List.range_succ]
  have he : (Contraction.vectors n).eval a b = scalar ((Pairing.ofLength n).dot a b) :=
    ext_entry rfl fun k hk => by
      obtain rfl : k = 0 := by simpa [Contraction.vectors] using hk
      exact Contraction.entry_eval _ _ _ (by simp [Contraction.vectors])
  have hc : Contraction.ofShapes? a.shape b.shape = some (Contraction.vectors n) := by
    simp [Contraction.ofShapes?, ha, hb]
  rw [matMul, hc]
  simp only [hr, he]
  cases traps with
  | off => rfl
  | on =>
    simp only [Traps.guard]
    split <;> rfl

/-- The product of two tensors as a single number, which that of two vectors is. -/
def dot (traps : Traps) (a b : Tensor R) : Except Error R := do
  (← matMul traps a b).number

/-! ### Norms -/

/-- The Euclidean norm of a vector. -/
def norm (traps : Traps) (a : Tensor R) : Except Error R := do
  let p := Pairing.ofLength a.size
  return Scalar.sqrt (← traps.guard .square false (p.raises a a) (p.dot a a))

/-- The sum of the `n` absolute values from position `i` on. -/
def rowSum (a : Tensor R) (n i : Nat) : R :=
  Scalar.sum n fun k => Scalar.abs (a.entry (i + k))

/-- The norm that belongs to the greatest absolute value: that value for a vector, the greatest
row sum for a matrix. -/
def maxNorm (a : Tensor R) : Except Error R :=
  match a.shape with
  | [_] => a.abs.maximum
  | [m, n] => (ofFn [m] fun i => rowSum a n (i * n)).maximum
  | _ => .error .shapesDiffer

end SelfDual.Tensor
