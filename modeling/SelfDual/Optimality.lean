import SelfDual.Solve.Result
/-!
**Optimality conditions.**

A point `(x, y, z)` is optimal if `A x = b`, `Aᵀ y + z = c`, `x ≥ 0`, `z ≥ 0` and `x z = 0`.  This
module measures by how much the conditions are missed.

Main definitions:

* `OptimalityGaps` — the five measures;
* `optimalityGaps` — those of a point;
* `OptimalityGaps.within` — whether all are within a tolerance.
-/

set_option autoImplicit false

namespace SelfDual

variable {R : Type} [Scalar R]

/-- By how much the optimality conditions are missed: the greatest residual of the constraints and
of the dual constraints, the greatest violation of the signs, the greatest product, and the
difference of the objectives. -/
structure OptimalityGaps (R : Type) where
  primal : R
  dual : R
  nonnegativity : R
  complementary : R
  gap : R

/-- The smaller of a scalar and zero, NaN for NaN. -/
def negativePart (a : R) : R :=
  Tensor.keepNaN Scalar.least a 0

/-- The gaps of a point; vectors may be given as tensors of any shape. -/
def optimalityGaps (c A b x y z : Tensor R) : Except Error (OptimalityGaps R) := do
  let c := c.flatten
  let b := b.flatten
  let x := x.flatten
  let y := y.flatten
  let z := z.flatten
  let primal ← primalResidual A x b
  let dual ← dualResidual c A y z
  let negative := Tensor.ofList ((x.toList ++ z.toList).map negativePart)
  let primal ← maxNormOrZero primal
  let dual ← dual.maxNorm
  let nonnegativity ← negative.maxNorm
  let complementary ← (← Tensor.mul .off x z).abs.maximum
  let cost ← Tensor.dot .off c x
  let difference ← Traps.off.combine .subtract cost (← Tensor.dot .off b y)
  return { primal, dual, nonnegativity, complementary, gap := Scalar.abs difference }

/-- Whether every gap is within the tolerance. -/
def OptimalityGaps.within (g : OptimalityGaps R) (tol : R) : Bool :=
  g.primal ≤ tol ∧ g.dual ≤ tol ∧ g.nonnegativity ≤ tol ∧ g.complementary ≤ tol ∧ g.gap ≤ tol

/-- The tolerance of the optimality test unless another is given. -/
def defaultOptimalityTolerance : Float := 1e-6

end SelfDual
