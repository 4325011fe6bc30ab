import SelfDual.Tensor.Arithmetic
import SelfDual.Tensor.Nested
/-!
**Points of the homogeneous model.**

The homogeneous self-dual model adds two numbers `tau` and `kappa` to the primal variables `x`, the
multipliers `y` and the reduced costs `z`.  Where `tau` stays away from zero, `x / tau` is a
solution of the linear program; where it vanishes beside `kappa`, the program has none.

Main definitions:

* `Iterate` — a point of the model, with its blind start and its test for finiteness;
* `Direction` — a change of every part of a point;
* `Iterate.move` — the point moved along a direction.
-/

set_option autoImplicit false

namespace SelfDual

/-- A point of the homogeneous model. -/
structure Iterate (R : Type) where
  x : Tensor R
  y : Tensor R
  z : Tensor R
  tau : R
  kappa : R

/-- A change of every part of a point. -/
structure Direction (R : Type) where
  dx : Tensor R
  dy : Tensor R
  dz : Tensor R
  dtau : R
  dkappa : R

namespace Iterate

variable {R : Type} [Scalar R]

/-- The point that every solve starts from: `x = z = 1`, `y = 0`, `tau = kappa = 1`. -/
def blindStart (m n : Nat) : Iterate R where
  x := Tensor.full [n] 1
  y := Tensor.full [m] 0
  z := Tensor.full [n] 1
  tau := 1
  kappa := 1

/-- The blind start for given shapes: `m` is that of the multipliers, `n` that of the variables.
The shape of the variables is read first, so its faults are the ones reported. -/
def blindStart? (m n : Value) : Except Error (Iterate R) := do
  let columns ← n.toShape
  let rows ← m.toShape
  return {
    x := Tensor.full columns 1, y := Tensor.full rows 0, z := Tensor.full columns 1
    tau := 1, kappa := 1 }

/-- Lengths that are not too large give the blind start of these lengths. -/
theorem blindStart?_whole {m n : Nat} (hm : m < Shape.maxSize) (hn : n < Shape.maxSize) :
    blindStart? (.whole m) (.whole n) = .ok (blindStart m n : Iterate R) := by
  rw [blindStart?, Value.toShape_whole hm, Value.toShape_whole hn]
  rfl

/-- Whether every component is finite. -/
def isFinite (it : Iterate R) : Bool :=
  it.x.isFinite && it.y.isFinite && it.z.isFinite && Scalar.isFinite it.tau &&
    Scalar.isFinite it.kappa

/-- The tensor `v + alpha · dv`. -/
def shift (traps : Traps) (v : Tensor R) (alpha : R) (dv : Tensor R) :
    Except Error (Tensor R) := do
  Tensor.add traps v (← Tensor.mul traps (.scalar alpha) dv)

/-- The point moved by `alpha` along a direction. -/
def move (traps : Traps) (it : Iterate R) (d : Direction R) (alpha : R) :
    Except Error (Iterate R) := do
  let x ← shift traps it.x alpha d.dx
  let y ← shift traps it.y alpha d.dy
  let z ← shift traps it.z alpha d.dz
  return { x, y, z, tau := it.tau + alpha * d.dtau, kappa := it.kappa + alpha * d.dkappa }

/-- The primal variables of the linear program, `x / tau`. -/
def solution (traps : Traps) (it : Iterate R) : Except Error (Tensor R) :=
  Tensor.div traps it.x (.scalar it.tau)

end Iterate

end SelfDual
