import SelfDual.Backend
/-!
**What can go wrong.**

Errors are causes; their wording is in one function.  A numerical breakdown is set apart, because
a solve ends with a status when one happens, while every other error is the caller's.

Main definitions:

* `Exception` — the exceptions of floating-point arithmetic that can be trapped;
* `Operation` — the operations that can raise one;
* `Breakdown` — the numerical breakdowns, with `Breakdown.message` and `Breakdown.quote`;
* `Error` — all errors, with `Error.message`;
* `require` — a proof of a condition, or an error.

What a computation does with its steps is said by `ok_bind`, `error_bind`, `exists_of_bind`,
`bind_eq_ok_iff` and `error_or_exists_of_bind`.
-/

set_option autoImplicit false

namespace SelfDual

/-! ### Arithmetic exceptions -/

/-- An exception of floating-point arithmetic. -/
inductive Exception where
  /-- A finite number divided by zero. -/
  | zeroDivide
  /-- An infinite result of finite operands. -/
  | overflow
  /-- A NaN from operands that are none. -/
  | invalid
  deriving DecidableEq, Repr

namespace Exception

/-- All exceptions, the one that is reported first in front. -/
def all : List Exception := [zeroDivide, overflow, invalid]

/-- What the exception is called. -/
def name : Exception → String
  | zeroDivide => "divide by zero"
  | overflow => "overflow"
  | invalid => "invalid value"

end Exception

/-- An arithmetic operation whose exceptions can be trapped. -/
inductive Operation where
  | add
  | subtract
  | multiply
  | divide
  /-- The product of two tensors. -/
  | product
  /-- The square of a vector, under a norm. -/
  | square
  deriving DecidableEq, Repr

/-- What the operation is called. -/
def Operation.name : Operation → String
  | add => "add"
  | subtract => "subtract"
  | multiply => "multiply"
  | divide => "divide"
  | product => "matmul"
  | square => "dot"

/-! ### Breakdowns -/

/-- A numerical breakdown: the computation cannot go on with these numbers. -/
inductive Breakdown where
  /-- A plain number was divided by zero. -/
  | divisionByZero
  /-- A trapped exception, on single numbers or on tensors. -/
  | trapped (exception : Exception) (operation : Operation) (onScalars : Bool)
  /-- The leading minor of this order, counted from 1, is the first that is not positive. -/
  | notPositiveDefinite (backend : Backend) (order : Nat)
  | matrixNotFinite
  | ratioNotPositive
  | solutionNotFinite
  | iterateNotFinite
  deriving DecidableEq, Repr

/-- The wording of a breakdown. -/
def Breakdown.message : Breakdown → String
  | divisionByZero => "float division by zero"
  | trapped exception operation onScalars =>
    exception.name ++ " encountered in " ++ (if onScalars then "scalar " else "") ++ operation.name
  | notPositiveDefinite .host order =>
    s!"{order}-th leading minor of the array is not positive definite"
  | notPositiveDefinite .device order =>
    s!"{order}-th leading minor not positive definite"
  | matrixNotFinite => "Normal-equations matrix has non-finite entries"
  | ratioNotPositive => "Non-finite or non-positive scaling ratio x/z"
  | solutionNotFinite => "Non-finite intermediate in reduced system solve"
  | iterateNotFinite => "Non-finite iterate after step"

/-- What the kind of a breakdown is called: arithmetic on plain numbers, arithmetic under traps, or
linear algebra. -/
def Breakdown.kind : Breakdown → String
  | divisionByZero => "ZeroDivisionError"
  | trapped _ _ _ => "FloatingPointError"
  | _ => "LinAlgError"

/-- A breakdown as it stands among other values: its kind, with the wording in quotes. -/
def Breakdown.quote (b : Breakdown) : String :=
  b.kind ++ "(" ++ Text.quoted b.message ++ ")"

/-! ### Errors -/

/-- The text of a shape: its lengths in parentheses, a single one with a comma after it. -/
def shapeText : List Nat → String
  | [n] => "(" ++ toString n ++ ",)"
  | shape => "(" ++ ", ".intercalate (shape.map toString) ++ ")"

/-- An error of any kind. -/
inductive Error where
  | breakdown (b : Breakdown)
  /-- The shapes of two operands do not fit. -/
  | shapesDiffer
  /-- A selection of another length than what it selects from. -/
  | maskLength
  /-- The largest entry of nothing was asked for. -/
  | noEntries
  /-- A tensor with axes where a single number is needed. -/
  | hasAxes (shape : List Nat)
  /-- A right-hand side without axes, which has no length. -/
  | rightSideAxes
  /-- A right-hand side that the device backend cannot take. -/
  | rightSideLength
  /-- A negative number of variables or constraints. -/
  | negativeLength
  /-- The square in the centering rule is too large. -/
  | powerTooLarge
  /-- A nested list whose items differ in shape. -/
  | unevenList
  /-- A nested list with more levels than a tensor can have axes. -/
  | tooManyAxes (axes : Nat)
  /-- A shape with more entries than can be counted. -/
  | tooManyEntries
  /-- A value that is neither a length nor a list of lengths. -/
  | notAShape (v : Value)
  /-- A text that is no number. -/
  | notANumber (t : Text)
  /-- A value of a kind that has no number. -/
  | notNumeric (v : Value)
  /-- An integer beyond the largest double. -/
  | integerTooLarge (n : Int)
  | notVector (field : String) (shape : List Nat)
  | notMatrix (field : String) (shape : List Nat)
  | noVariables
  | columnsDiffer (columns n : Nat)
  | rowsDiffer (rows m : Nat)
  | entriesNotFinite (field : String)
  | notSquare (shape : List Nat)
  | unknownBackend (v : Value)
  | unknownDevice (v : Value)
  /-- A device that this machine does not have. -/
  | missingDevice
  | unknownSetting (name : Text)
  /-- Settings are to be replaced in a value that holds none. -/
  | notReplaceable (v : Value)
  /-- A setting is asked of a value that holds none. -/
  | noSettings
  /-- A callback that cannot be called. -/
  | notCallable (v : Value)
  /-- A setting of a kind that has no order. -/
  | notComparable (v : Value)
  /-- A setting that cannot be read as an integer. -/
  | notAnInteger (v : Value)
  /-- An infinite setting where an integer is needed. -/
  | infiniteInteger
  | stepFraction (v : Value)
  | centeringCap (v : Value)
  | iterationLimit (v : Value)
  | tolerance (v : Value)
  | timeLimit (v : Value)
  | unknownStatus (v : Value)
  deriving Repr

/-- The wording of an error. -/
def Error.message : Error → Text
  | breakdown b => b.message
  | shapesDiffer => "the shapes of the operands do not fit"
  | maskLength => "the selection has another length than the tensor"
  | noEntries => "there is no largest entry of an empty tensor"
  | hasAxes shape => "not a single number: a tensor of shape " ++ shapeText shape
  | rightSideAxes => "the right-hand side has no axes"
  | rightSideLength => "the right-hand side has another length than the matrix"
  | negativeLength => "a length is negative"
  | powerTooLarge => "the square is too large"
  | unevenList => "the list is uneven"
  | tooManyAxes axes => s!"the list has {axes} levels"
  | tooManyEntries => "the shape has too many entries"
  | notAShape v => "not a shape: " ++ v.quote
  | notANumber t => "not a number: " ++ t.quoted
  | notNumeric v => "not a number: " ++ v.quote
  | integerTooLarge _ => "the integer is too large"
  | notVector field shape => field ++ " must be a 1D array, got shape " ++ shapeText shape ++ "."
  | notMatrix field shape => field ++ " must be a 2D array, got shape " ++ shapeText shape ++ "."
  | noVariables => "Linear program must contain at least one variable."
  | columnsDiffer columns n => s!"A has {columns} columns but c has length {n}."
  | rowsDiffer rows m => s!"A has {rows} rows but b has length {m}."
  | entriesNotFinite field => field ++ " contains non-finite entries."
  | notSquare shape => "matrix must be square, got shape " ++ shapeText shape
  | unknownBackend v =>
    "Unsupported backend: " ++ v.quote ++ ". Supported backends: " ++
      (Value.list (Backend.all.map fun b => .text b.name)).quote
  | unknownDevice v => "Unsupported device name: " ++ v.quote ++ ". Use 'cpu' or 'cuda'."
  | missingDevice => "CUDA device requested but CUDA is not available"
  | unknownSetting name => "unknown setting " ++ name.quoted
  | notReplaceable v => "no settings to replace in: " ++ v.quote
  | noSettings => "the settings to start from are none"
  | notCallable v => "not a callback: " ++ v.quote
  | notComparable v => "not comparable with a number: " ++ v.quote
  | notAnInteger v => "not an integer: " ++ v.quote
  | infiniteInteger => "an integer cannot be infinite"
  | stepFraction v => "alpha0 must lie in (0, 1], got " ++ v.display ++ "."
  | centeringCap v => "beta must lie in (0, 1), got " ++ v.display ++ "."
  | iterationLimit v => "maxiter must be a positive integer, got " ++ v.display ++ "."
  | tolerance v => "tol must be positive, got " ++ v.display ++ "."
  | timeLimit v => "time_limit must be positive or None, got " ++ v.display ++ "."
  | unknownStatus v => "not a status: " ++ v.quote

/-- A proof of the condition, or the error. -/
def require (condition : Prop) [Decidable condition] (e : Error) :
    Except Error (PLift condition) :=
  if h : condition then .ok ⟨h⟩ else .error e

/-- A condition that holds lets the work after it go on with its proof. -/
theorem require_bind {condition : Prop} [Decidable condition] {R : Type} (h : condition)
    (e : Error) (next : PLift condition → Except Error R) :
    (require condition e >>= next) = next ⟨h⟩ := by
  rw [require, dif_pos h]
  rfl

/-! ### Binds -/

@[simp] theorem ok_bind {ε α β : Type} (a : α) (f : α → Except ε β) :
    (Except.ok a >>= f) = f a := pure_bind a f

@[simp] theorem error_bind {ε α β : Type} (e : ε) (f : α → Except ε β) :
    (Except.error e >>= f) = .error e := rfl

/-- What a successful bind has computed first. -/
theorem exists_of_bind {ε α β : Type} {x : Except ε α} {f : α → Except ε β} {b : β}
    (h : (x >>= f) = .ok b) : ∃ a, x = .ok a ∧ f a = .ok b := by
  cases x with
  | error e => cases h
  | ok a => exact ⟨a, rfl, h⟩

/-- A bind succeeds exactly if both of its parts do. -/
theorem bind_eq_ok_iff {ε α β : Type} {x : Except ε α} {f : α → Except ε β} {b : β} :
    (x >>= f) = .ok b ↔ ∃ a, x = .ok a ∧ f a = .ok b := by
  constructor
  · exact exists_of_bind
  · rintro ⟨a, rfl, h⟩
    exact h

/-- Where a bind that fails has failed. -/
theorem error_or_exists_of_bind {ε α β : Type} {x : Except ε α} {f : α → Except ε β} {e : ε}
    (h : (x >>= f) = .error e) : x = .error e ∨ ∃ a, x = .ok a ∧ f a = .error e := by
  cases x with
  | error e' => exact .inl (congrArg _ (Except.error.inj h))
  | ok a => exact .inr ⟨a, rfl, h⟩

end SelfDual
