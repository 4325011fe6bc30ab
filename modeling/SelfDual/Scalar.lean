import SelfDual.Error
/-!
**Scalars and their arithmetic.**

The numerical method is written once for every type of scalars that has the operations below, so
that one definition has a floating-point reading, which runs, and an exact one.  Operations on
tensors, and those between single numbers that come from them, can trap the exceptions of
floating-point arithmetic; in an exact reading the only exception is a division by zero.

Main definitions:

* `Scalar` — the operations, comparisons and tests that a scalar has;
* `Scalar.isZero`, `Scalar.least`, `Scalar.greatest` — the comparisons that the rules use;
* `Scalar.quotient` — the division of plain numbers, which refuses a zero divisor;
* `Traps` — whether exceptions are trapped;
* `Traps.combine` — one operation between single numbers.
-/

set_option autoImplicit false

namespace SelfDual

/-! ### The operations of a scalar -/

/-- The operations, comparisons and tests of a type of scalars. -/
class Scalar (R : Type) where
  [toZero : Zero R]
  [toOne : One R]
  [toAdd : Add R]
  [toSub : Sub R]
  [toMul : Mul R]
  [toDiv : Div R]
  [toNeg : Neg R]
  [toLT : LT R]
  [toLE : LE R]
  /-- Comparison is decidable. -/
  decidableLT : DecidableLT R
  /-- Comparison is decidable. -/
  decidableLE : DecidableLE R
  /-- The scalar nearest to a natural number. -/
  ofNat : Nat → R
  abs : R → R
  sqrt : R → R
  /-- The second power. -/
  square : R → R
  isFinite : R → Bool
  isNaN : R → Bool
  isFinite_zero : isFinite 0 = true
  isFinite_one : isFinite 1 = true

section Operations

variable {R : Type} [Scalar R]

-- The priority is low: a type that has operations of its own is written with these.
instance (priority := low) Scalar.instZero : Zero R := Scalar.toZero

instance (priority := low) Scalar.instOne : One R := Scalar.toOne

instance (priority := low) Scalar.instAdd : Add R := Scalar.toAdd

instance (priority := low) Scalar.instSub : Sub R := Scalar.toSub

instance (priority := low) Scalar.instMul : Mul R := Scalar.toMul

instance (priority := low) Scalar.instDiv : Div R := Scalar.toDiv

instance (priority := low) Scalar.instNeg : Neg R := Scalar.toNeg

instance (priority := low) Scalar.instLT : LT R := Scalar.toLT

instance (priority := low) Scalar.instLE : LE R := Scalar.toLE

end Operations

instance Scalar.instDecidableLT {R : Type} [Scalar R] : DecidableLT R := Scalar.decidableLT

instance Scalar.instDecidableLE {R : Type} [Scalar R] : DecidableLE R := Scalar.decidableLE

/-- Doubles.  The square is the power function at two, whose last digit may be off by one. -/
instance Scalar.instFloat : Scalar Float where
  decidableLT := inferInstance
  decidableLE := inferInstance
  ofNat n := Decimal.nearest false ⟨n, 1⟩
  abs := Float.abs
  sqrt := Float.sqrt
  square a := Float.pow a (Float.ofNat 2)
  isFinite := Float.isFinite
  isNaN := Float.isNaN
  isFinite_zero := by decide
  isFinite_one := by decide

namespace Scalar

variable {R : Type} [Scalar R]

/-- Whether the scalar is zero, of either sign. -/
def isZero (a : R) : Bool :=
  a ≤ 0 ∧ 0 ≤ a

/-- The smaller of two scalars; the first unless the second is smaller. -/
def least (a b : R) : R :=
  if b < a then b else a

/-- The greater of two scalars; the first unless the second is greater. -/
def greatest (a b : R) : R :=
  if a < b then b else a

/-- One half. -/
def half : R :=
  1 / (1 + 1)

/-- The division of plain numbers. -/
def quotient (a b : R) : Except Error R :=
  if isZero b then .error (.breakdown .divisionByZero) else .ok (a / b)

/-- The sum `f 0 + … + f (n - 1)`, added from the left. -/
def sum : Nat → (Nat → R) → R
  | 0, _ => 0
  | n + 1, f => sum n f + f n

@[simp] theorem sum_zero (f : Nat → R) : sum 0 f = 0 := rfl

@[simp] theorem sum_succ (n : Nat) (f : Nat → R) : sum (n + 1) f = sum n f + f n := rfl

end Scalar

/-- What an operation computes on two entries; products of tensors multiply them. -/
def Operation.eval {R : Type} [Scalar R] : Operation → R → R → R
  | add, a, b => a + b
  | subtract, a, b => a - b
  | multiply, a, b => a * b
  | divide, a, b => a / b
  | product, a, b => a * b
  | square, a, b => a * b

/-! ### Exceptions -/

/-- Whether the operation with operands `a`, `b` and result `r` raises the exception. -/
def Exception.raisedBy {R : Type} [Scalar R] (e : Exception) (op : Operation) (a b r : R) : Bool :=
  match e with
  | zeroDivide =>
    op == .divide && Scalar.isZero b && Scalar.isFinite a && !Scalar.isNaN r
  | overflow =>
    Scalar.isFinite a && Scalar.isFinite b && !Scalar.isFinite r && !Scalar.isNaN r
  | invalid =>
    !Scalar.isNaN a && !Scalar.isNaN b && Scalar.isNaN r

/-- Whether exceptions end a computation. -/
inductive Traps where
  /-- Exceptions pass; their results are infinities and NaNs. -/
  | off
  /-- The first exception is a breakdown. -/
  | on
  deriving DecidableEq, Repr

namespace Traps

/-- Passes a result on unless an exception that holds is trapped. -/
def guard {α : Type} (traps : Traps) (op : Operation) (onScalars : Bool)
    (holds : Exception → Bool) (result : α) : Except Error α :=
  match traps with
  | off => .ok result
  | on =>
    match Exception.all.find? holds with
    | some e => .error (.breakdown (.trapped e op onScalars))
    | none => .ok result

@[simp] theorem guard_off {α : Type} (op : Operation) (onScalars : Bool)
    (holds : Exception → Bool) (result : α) : guard off op onScalars holds result = .ok result :=
  rfl

/-- Nothing is trapped where no exception holds. -/
theorem guard_of_forall {α : Type} (traps : Traps) (op : Operation) (onScalars : Bool)
    (holds : Exception → Bool) (result : α) (h : ∀ e, holds e = false) :
    guard traps op onScalars holds result = .ok result := by
  cases traps with
  | off => rfl
  | on => simp [guard, Exception.all, h]

/-- One operation between single numbers. -/
def combine {R : Type} [Scalar R] (traps : Traps) (op : Operation) (a b : R) : Except Error R :=
  let r := op.eval a b
  traps.guard op true (fun e => e.raisedBy op a b r) r

end Traps

end SelfDual
