import SelfDual.Iterate
/-!
**The ratio test.**

The step along a direction is the greatest one, up to a fraction, that keeps `x`, `z`, `tau` and
`kappa` positive.  Primal and dual parts take the same step.

Main definitions:

* `blockStep` — the step that one vector allows;
* `numberStep` — the step that one number allows;
* `stepLength` — the step that all parts allow, at most one.
-/

set_option autoImplicit false

namespace SelfDual

variable {R : Type} [Scalar R]

/-- The fraction `alpha0` of the step at which the first component of a vector reaches zero;
`alpha0` itself if no component decreases.  A change with fewer axes than the value stands for the
changes of whole blocks. -/
def blockStep (traps : Traps) (value delta : Tensor R) (alpha0 : R) : Except Error R := do
  if delta.any (· < 0) then
    let falls (k : Nat) : Bool := delta.entry k < 0
    let values ← value.select delta.shape falls
    let changes ← delta.select delta.shape falls
    let ratios ← Tensor.div traps values changes.neg
    traps.combine .multiply alpha0 (← ratios.minimum)
  else
    return alpha0

/-- The fraction `alpha0` of the step at which a number reaches zero; `alpha0` itself if it does
not decrease. -/
def numberStep (value delta alpha0 : R) : R :=
  if delta < 0 then alpha0 * value / -delta else alpha0

/-- The step along a direction, at most one. -/
def stepLength (traps : Traps) (it : Iterate R) (d : Direction R) (alpha0 : R) :
    Except Error R := do
  let alphaX ← blockStep traps it.x d.dx alpha0
  let alphaZ ← blockStep traps it.z d.dz alpha0
  let alphaTau := numberStep it.tau d.dtau alpha0
  let alphaKappa := numberStep it.kappa d.dkappa alpha0
  return Scalar.least (Scalar.least (Scalar.least (Scalar.least 1 alphaX) alphaZ) alphaTau)
    alphaKappa

end SelfDual
