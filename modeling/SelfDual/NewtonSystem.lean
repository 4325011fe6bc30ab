import SelfDual.Indicators
import SelfDual.NormalEquations
import SelfDual.StepLength
/-!
**The Newton system and the search direction.**

At a point the Newton system of the homogeneous model is assembled once and solved twice: a
predictor aims at the boundary, and a corrector centres by an amount that depends on how far the
predictor could go, with the second-order terms of the predictor in its right-hand side.

Main definitions:

* `NewtonSystem` — what all solves at one point share;
* `NewtonSystem.assemble` — the system at a point;
* `NewtonSystem.direction` — the solution for one right-hand side;
* `NewtonSystem.centred` — the solution for a centering without second-order terms;
* `correctorGamma` — the centering that a predictor step asks for;
* `searchDirection` — the corrected direction.
-/

set_option autoImplicit false

namespace SelfDual

variable {R : Type} [Scalar R]

/-! ### The system -/

/-- What all solves of the Newton system at a point share: the residuals, the scaling, the
factorized normal equations, and the solution `(p, q)` that carries the change of `tau`. -/
structure NewtonSystem (R : Type) [Scalar R] where
  problem : Problem R
  point : Iterate R
  residuals : Residuals R
  scaling : Tensor R
  factorization : Factorization R
  p : Tensor R
  q : Tensor R

namespace NewtonSystem

/-- The Newton system at a point. -/
def assemble (traps : Traps) (factorizer : Factorizer R) (problem : Problem R)
    (point : Iterate R) : Except Error (NewtonSystem R) := do
  let residuals ← SelfDual.residuals traps problem point
  let scaling ← scalingRatio point.x point.z
  let factorization ← factorizer (← normalMatrix traps problem.A scaling)
  let (p, q) ← saddleSolve traps factorization problem.A scaling problem.c problem.b
  return { problem, point, residuals, scaling, factorization, p, q }

/-- The product `-c · u + b · v`, a single number if `u` and `v` are vectors. -/
def coupling (traps : Traps) (problem : Problem R) (u v : Tensor R) :
    Except Error (Tensor R) := do
  let cost ← Tensor.matMul traps problem.c.neg u
  Tensor.add traps cost (← Tensor.matMul traps problem.b v)

/-- The direction that removes the fraction `1 - gamma` of the residuals and changes the products
`x z` and `tau kappa` by `r_xz` and `r_tk` to first order.  The changes of `tau` and `kappa` must
be single numbers, which is tested last. -/
def direction (traps : Traps) (s : NewtonSystem R) (gamma : R) (r_xz : Tensor R) (r_tk : R) :
    Except Error (Direction R) := do
  let it := s.point
  let eta : R := 1 - gamma
  let primal ← Tensor.mul traps (.scalar eta) s.residuals.primal
  let dual ← Tensor.mul traps (.scalar eta) s.residuals.dual
  let gap := eta * s.residuals.gap
  let (u, v) ← saddleSolve traps s.factorization s.problem.A s.scaling
    (← Tensor.sub traps dual (← Tensor.div traps r_xz it.x)) primal
  let known := gap + (← Scalar.quotient r_tk it.tau)
  let above ← Tensor.sub traps (.scalar known) (← coupling traps s.problem u v)
  let ratio ← Scalar.quotient it.kappa it.tau
  let below ← Tensor.add traps (.scalar ratio) (← coupling traps s.problem s.p s.q)
  let dtau ← Tensor.div traps above below
  let dx ← Tensor.add traps u (← Tensor.mul traps s.p dtau)
  let dy ← Tensor.add traps v (← Tensor.mul traps s.q dtau)
  let dz ← Tensor.div traps (← Tensor.sub traps r_xz (← Tensor.mul traps it.z dx)) it.x
  let change ← Tensor.sub traps (.scalar r_tk) (← Tensor.mul traps (.scalar it.kappa) dtau)
  let dkappa ← Tensor.div traps change (.scalar it.tau)
  return { dx, dy, dz, dtau := ← dtau.number, dkappa := ← dkappa.number }

/-- The right-hand side `gamma mu - x z` of a centering. -/
def centredProducts (traps : Traps) (s : NewtonSystem R) (gamma : R) : Except Error (Tensor R) := do
  Tensor.sub traps (.scalar (gamma * s.residuals.mu)) (← Tensor.mul traps s.point.x s.point.z)

/-- The right-hand side `gamma mu - tau kappa` of a centering. -/
def centredNumber (s : NewtonSystem R) (gamma : R) : R :=
  gamma * s.residuals.mu - s.point.tau * s.point.kappa

/-- The direction for a centering without second-order terms; either right-hand side of the
products can be replaced. -/
def centred (traps : Traps) (s : NewtonSystem R) (gamma : R) (r_xz : Option (Tensor R) := none)
    (r_tk : Option R := none) : Except Error (Direction R) := do
  let products ←
    match r_xz with
    | some r => pure r
    | none => s.centredProducts traps gamma
  s.direction traps gamma products (r_tk.getD (s.centredNumber gamma))

/-- The direction that aims at the boundary. -/
def predictor (traps : Traps) (s : NewtonSystem R) : Except Error (Direction R) := do
  s.direction traps 0 (← Tensor.mul traps s.point.x.neg s.point.z)
    (-s.point.tau * s.point.kappa)

/-- The direction with the centering `gamma` and the second-order terms of a predictor. -/
def corrector (traps : Traps) (s : NewtonSystem R) (predictor : Direction R) (gamma : R) :
    Except Error (Direction R) := do
  let r_xz ← Tensor.sub traps (← s.centredProducts traps gamma)
    (← Tensor.mul traps predictor.dx predictor.dz)
  s.direction traps gamma r_xz (s.centredNumber gamma - predictor.dtau * predictor.dkappa)

end NewtonSystem

/-! ### The direction -/

/-- The centering `(1 - alpha)² min(beta, 1 - alpha)`. -/
def correctorGamma (alpha beta : R) : Except Error R :=
  let rest := 1 - alpha
  let square := Scalar.square rest
  if Scalar.isFinite rest && !Scalar.isFinite square then .error .powerTooLarge
  else .ok (square * Scalar.least beta rest)

/-- The corrected direction at a point, its centering capped by `beta`. -/
def searchDirection (traps : Traps) (factorizer : Factorizer R) (problem : Problem R)
    (it : Iterate R) (beta : R) : Except Error (Direction R) := do
  let s ← NewtonSystem.assemble traps factorizer problem it
  let predictor ← s.predictor traps
  let alpha ← stepLength traps it predictor 1
  let gamma ← correctorGamma alpha beta
  s.corrector traps predictor gamma

end SelfDual
