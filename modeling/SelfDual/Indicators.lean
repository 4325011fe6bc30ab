import SelfDual.Problem
import SelfDual.Iterate
import SelfDual.Tensor.Product
/-!
**Residuals and termination indicators.**

The residuals say how far a point is from the homogeneous model.  The indicators divide them by
their size at the blind start, so that one tolerance serves programs of every scale.

Main definitions:

* `Residuals`, `residuals` — the residuals of a point;
* `Indicators`, `indicators` — its normalized indicators;
* `Indicators.isSolved` — whether they are those of a solution;
* `Indicators.isCertificate` — whether they are those of a program without one.
-/

set_option autoImplicit false

namespace SelfDual

variable {R : Type} [Scalar R]

/-! ### Residuals -/

/-- The residuals of a point: primal `b tau - A x`, dual `c tau - Aᵀ y - z`, gap
`kappa + c · x - b · y`, and the complementarity `(x · z + tau kappa) / (n + 1)`. -/
structure Residuals (R : Type) where
  primal : Tensor R
  dual : Tensor R
  gap : R
  mu : R

/-- The residuals of a point. -/
def residuals (traps : Traps) (p : Problem R) (it : Iterate R) : Except Error (Residuals R) := do
  let primal ← Tensor.sub traps (← Tensor.mul traps p.b (.scalar it.tau))
    (← Tensor.matMul traps p.A it.x)
  let dual ← Tensor.sub traps
    (← Tensor.sub traps (← Tensor.mul traps p.c (.scalar it.tau))
      (← Tensor.matMul traps p.A.transpose it.y))
    it.z
  let cost ← Tensor.add traps (.scalar it.kappa) (← Tensor.matMul traps p.c it.x)
  let gap ← (← Tensor.sub traps cost (← Tensor.matMul traps p.b it.y)).number
  let products ← Tensor.add traps (← Tensor.matMul traps it.x it.z) (.scalar (it.tau * it.kappa))
  let count := Tensor.scalar (Scalar.ofNat (it.x.size + 1))
  let mu ← (← Tensor.div traps products count).number
  return { primal, dual, gap, mu }

/-! ### Indicators -/

/-- The normalized indicators of a point: primal and dual infeasibility, relative duality gap, gap
residual, complementarity, and the objective `c · (x / tau)`. -/
structure Indicators (R : Type) where
  rhoP : R
  rhoD : R
  rhoA : R
  rhoG : R
  rhoMu : R
  obj : R
  deriving Repr

/-- The indicators of a point. -/
def indicators (traps : Traps) (p : Problem R) (it : Iterate R) :
    Except Error (Indicators R) := do
  let start ← residuals traps p (.blindStart p.m p.n)
  let now ← residuals traps p it
  let dualObjective ← Tensor.dot traps p.b it.y
  let rhoP := (← now.primal.norm traps) / Scalar.greatest 1 (← start.primal.norm traps)
  let rhoD := (← now.dual.norm traps) / Scalar.greatest 1 (← start.dual.norm traps)
  let primalObjective ← Tensor.dot traps p.c it.x
  let rhoA ← Scalar.quotient (Scalar.abs (primalObjective - dualObjective))
    (it.tau + Scalar.abs dualObjective)
  let rhoG := Scalar.abs now.gap / Scalar.greatest 1 (Scalar.abs start.gap)
  let rhoMu ← Scalar.quotient now.mu start.mu
  let obj ← Tensor.dot traps p.c (← it.solution traps)
  return { rhoP, rhoD, rhoA, rhoG, rhoMu, obj }

namespace Indicators

/-- Primal infeasibility, dual infeasibility and relative gap are within the tolerance. -/
def isSolved (ind : Indicators R) (tol : R) : Bool :=
  ind.rhoP ≤ tol ∧ ind.rhoD ≤ tol ∧ ind.rhoA ≤ tol

/-- The residuals are below the tolerance while `tau` has vanished beside `kappa`. -/
def residualsVanish (ind : Indicators R) (tau kappa tol : R) : Bool :=
  ind.rhoP < tol ∧ ind.rhoD < tol ∧ ind.rhoG < tol ∧ tau < tol * Scalar.greatest 1 kappa

/-- The complementarity is below the tolerance while `tau` has vanished beside `kappa`. -/
def complementarityVanishes (ind : Indicators R) (tau kappa tol : R) : Bool :=
  ind.rhoMu < tol ∧ tau < tol * Scalar.least 1 kappa

/-- The point shows that there is no solution rather than showing one. -/
def isCertificate (ind : Indicators R) (tau kappa tol : R) : Bool :=
  ind.residualsVanish tau kappa tol || ind.complementarityVanishes tau kappa tol

end Indicators

end SelfDual
