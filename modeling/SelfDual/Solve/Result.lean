import SelfDual.Solve.Loop
/-!
**The solution of a linear program.**

A solve starts at the blind point, iterates, and turns the point it ends at into a solution of the
linear program by dividing by `tau` and setting small entries of `x` to zero.

Main definitions:

* `Result` — what a solve returns;
* `Progress.result` — the result at the point where a loop stands;
* `Outcome` — the events of a solve and its result;
* `Run.solve` — the solve with any kernels;
* `solve` — the solve of a linear program.
-/

set_option autoImplicit false

namespace SelfDual

variable {R : Type} [Scalar R]

/-! ### Results -/

/-- What a solve returns. -/
structure Result (R : Type) where
  x : Tensor R
  y : Tensor R
  z : Tensor R
  objective : R
  stop : Stop
  nit : Nat
  primalResidual : R
  dualResidual : R
  history : List (Indicators R)

namespace Result

/-- The status of a result. -/
def status (r : Result R) : Status := r.stop.status

/-- The wording of a result. -/
def message (r : Result R) : String := r.stop.message

/-- Whether a solution was found. -/
def success (r : Result R) : Bool := r.status == .optimal

end Result

/-- The entries below the tolerance set to zero. -/
def snap (tol : R) (x : Tensor R) : Tensor R :=
  x.map fun v => if v < tol then 0 else v

/-- The greatest absolute value of a vector, zero for an empty one. -/
def maxNormOrZero (t : Tensor R) : Except Error R :=
  if t.size = 0 then .ok 0 else t.maxNorm

/-- The residual `A x - b`. -/
def primalResidual (A x b : Tensor R) : Except Error (Tensor R) := do
  Tensor.sub .off (← Tensor.matMul .off A x) b

/-- The residual `c - Aᵀ y - z`. -/
def dualResidual (c A y z : Tensor R) : Except Error (Tensor R) := do
  Tensor.sub .off (← Tensor.sub .off c (← Tensor.matMul .off A.transpose y)) z

/-- The result at the point where a loop stands. -/
def Progress.result (s : Progress R) (p : Problem R) (tol : R) (stop : Stop) :
    Except Error (Result R) := do
  let tau := Tensor.scalar s.point.tau
  let x := snap tol (← Tensor.div .off s.point.x tau)
  let y ← Tensor.div .off s.point.y tau
  let z ← Tensor.div .off s.point.z tau
  let primal ← primalResidual p.A x p.b
  let dual ← dualResidual p.c p.A y z
  return {
    x, y, z, stop
    objective := s.indicators.obj
    nit := s.nit
    primalResidual := ← maxNormOrZero primal
    dualResidual := ← dual.maxNorm
    history := s.history }

/-! ### Solves -/

/-- The events of a solve, in order, and its result. -/
structure Outcome (R : Type) where
  events : List (Event R)
  result : Except Error (Result R)

/-- The outcome with an error for its result, unless it has one already. -/
def Outcome.fail (o : Outcome R) (e : Error) : Outcome R :=
  { o with result := o.result.bind fun _ => .error e }

namespace Run

/-- The events before the first iteration. -/
def opening (run : Run R) (start : Indicators R) : List (Event R) :=
  (if run.options.verbose then [.header, .row start none] else []) ++
    [.opened run.problem.m run.problem.n run.options.backend]

/-- Where the loop stands before the first iteration. -/
def start (run : Run R) (indicators : Indicators R) : Progress R where
  nit := 0
  point := .blindStart run.problem.m run.problem.n
  indicators := indicators
  history := []
  events := run.opening indicators

/-- The solve from given indicators of the blind start. -/
def solveFrom (run : Run R) (indicators : Indicators R) : Outcome R :=
  match run.loop run.options.maxiter (run.start indicators) with
  | (s, .error e) => ⟨s.events, .error e⟩
  | (s, .ok stop) =>
    ⟨s.events ++ [.closed s.nit stop.message], s.result run.problem run.options.tol stop⟩

/-- The solve.  The indicators of the blind start are formed without traps. -/
def solve (run : Run R) : Outcome R :=
  match indicators .off run.problem (.blindStart run.problem.m run.problem.n) with
  | .error e => ⟨[], .error e⟩
  | .ok start => run.solveFrom start

end Run

/-- The solve of a linear program with the homogeneous method. -/
def solve (p : Problem R) (o : Options R) (callback : Option (Callback R))
    (clock : Nat → R) : Outcome R :=
  Run.solve { problem := p, options := o, kernels := .standard p o, callback, clock }

end SelfDual
