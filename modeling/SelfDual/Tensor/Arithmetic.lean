import SelfDual.Tensor.Basic
/-!
**Arithmetic entry by entry.**

The operations between two tensors first stretch both to their common shape and then combine them
entry by entry.  A single number takes part as a tensor without axes.

Main definitions:

* `Tensor.combine` — one operation between two tensors;
* `Tensor.add`, `Tensor.sub`, `Tensor.mul`, `Tensor.div` — the four operations;
* `Tensor.neg`, `Tensor.abs` — the operations on one tensor;
* `Tensor.minimum`, `Tensor.maximum` — the extreme entries.

Main results:

* `Tensor.combine_of_shape_eq` — tensors of one shape are combined as they are;
* `Tensor.combine_of_common_eq_none` — shapes that do not fit are an error;
* `Tensor.combine_scalar` — single numbers are combined as numbers.
-/

set_option autoImplicit false

namespace SelfDual.Tensor

variable {R : Type} [Scalar R]

/-! ### Two tensors -/

/-- The tensors of one shape combined entry by entry. -/
def zipEntries (f : R → R → R) (a b : Tensor R) : Tensor R :=
  ofFn a.shape fun k => f (a.entry k) (b.entry k)

@[simp] theorem shape_zipEntries (f : R → R → R) (a b : Tensor R) :
    (zipEntries f a b).shape = a.shape := rfl

theorem entry_zipEntries (f : R → R → R) (a b : Tensor R) {k : Nat}
    (h : k < Shape.size a.shape) : (zipEntries f a b).entry k = f (a.entry k) (b.entry k) :=
  entry_ofFn_of_lt h

/-- Combines two tensors of one shape; an exception of any entry may be trapped. -/
def combineSame (traps : Traps) (op : Operation) (a b : Tensor R) : Except Error (Tensor R) :=
  let r := zipEntries op.eval a b
  traps.guard op a.shape.isEmpty
    (fun e => (List.range a.size).any fun k => e.raisedBy op (a.entry k) (b.entry k) (r.entry k)) r

/-- One operation between two tensors. -/
def combine (traps : Traps) (op : Operation) (a b : Tensor R) : Except Error (Tensor R) :=
  match Shape.common? a.shape b.shape with
  | none => .error .shapesDiffer
  | some shape => combineSame traps op (a.stretch shape) (b.stretch shape)

/-- Tensors of one shape are combined as they are. -/
theorem combine_of_shape_eq (traps : Traps) (op : Operation) {a b : Tensor R}
    (h : a.shape = b.shape) : combine traps op a b = combineSame traps op a b := by
  have hb : b.stretch a.shape = b := by rw [h, stretch_shape]
  simp [combine, ← h, hb]

/-- Shapes that do not fit are an error. -/
theorem combine_of_common_eq_none (traps : Traps) (op : Operation) {a b : Tensor R}
    (h : Shape.common? a.shape b.shape = none) : combine traps op a b = .error .shapesDiffer := by
  rw [combine, h]

/-- Single numbers are combined as numbers. -/
theorem combine_scalar (traps : Traps) (op : Operation) (a b : R) :
    combine traps op (scalar a) (scalar b) = (traps.combine op a b).map scalar := by
  have hz : zipEntries op.eval (scalar a) (scalar b) = scalar (op.eval a b) :=
    ext_entry rfl fun k hk => by
      obtain rfl : k = 0 := by simpa using hk
      exact entry_zipEntries _ _ _ (by simp)
  have hs : (scalar a).shape = (scalar b).shape := rfl
  rw [combine_of_shape_eq traps op hs, combineSame, Traps.combine, hz]
  cases traps with
  | off => rfl
  | on =>
    have hr : List.range (scalar a).size = [0] := by simp [List.range_succ]
    simp only [Traps.guard, hr, List.any_cons, List.any_nil, Bool.or_false, entry_scalar,
      shape_scalar, List.isEmpty_nil]
    split <;> rfl

/-- Without traps, combining tensors of one shape always succeeds. -/
@[simp] theorem combineSame_off (op : Operation) (a b : Tensor R) :
    combineSame .off op a b = .ok (zipEntries op.eval a b) := rfl

/-- The sum. -/
def add (traps : Traps) (a b : Tensor R) : Except Error (Tensor R) := combine traps .add a b

/-- The difference. -/
def sub (traps : Traps) (a b : Tensor R) : Except Error (Tensor R) := combine traps .subtract a b

/-- The product entry by entry. -/
def mul (traps : Traps) (a b : Tensor R) : Except Error (Tensor R) := combine traps .multiply a b

/-- The quotient entry by entry. -/
def div (traps : Traps) (a b : Tensor R) : Except Error (Tensor R) := combine traps .divide a b

/-! ### One tensor -/

/-- The tensor with every sign changed. -/
def neg (a : Tensor R) : Tensor R := a.map fun r => -r

@[simp] theorem shape_neg (a : Tensor R) : a.neg.shape = a.shape := rfl

/-- The absolute values. -/
def abs (a : Tensor R) : Tensor R := a.map Scalar.abs

/-- Whether all entries are finite. -/
def isFinite (a : Tensor R) : Bool := a.all Scalar.isFinite

/-- Keeps a NaN, and else the one of two scalars that `choose` prefers. -/
def keepNaN (choose : R → R → R) (a b : R) : R :=
  if Scalar.isNaN a then a else if Scalar.isNaN b then b else choose a b

/-- The smallest of some scalars, NaN if one of them is NaN.  Of equal ones, as zeros of both signs
are, the last counts. -/
def minimumOf : R → List R → R
  | a, [] => a
  | a, b :: bs => minimumOf (keepNaN (fun a b => Scalar.least b a) a b) bs

/-- The greatest of some scalars, NaN if one of them is NaN.  Of equal ones, as zeros of both signs
are, the last counts. -/
def maximumOf : R → List R → R
  | a, [] => a
  | a, b :: bs => maximumOf (keepNaN (fun a b => Scalar.greatest b a) a b) bs

/-- The smallest entry, NaN if one is NaN. -/
def minimum (a : Tensor R) : Except Error R :=
  match a.toList with
  | [] => .error .noEntries
  | x :: xs => .ok (minimumOf x xs)

/-- The greatest entry, NaN if one is NaN. -/
def maximum (a : Tensor R) : Except Error R :=
  match a.toList with
  | [] => .error .noEntries
  | x :: xs => .ok (maximumOf x xs)

end SelfDual.Tensor
