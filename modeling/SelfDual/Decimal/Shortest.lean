import SelfDual.Decimal.Scientific
/-!
**The shortest text of a double.**

The fewest decimal digits that read back as the same double, and of those the nearest to its
value.  The doubles next to `m · 2 ^ e` bound an interval around it; a decimal in that interval
reads back, its ends included exactly when `m` is even.

Main definitions:

* `Decimal.Grid` — the value, the interval and a decimal grid, in one unit;
* `Decimal.shortest` — the shortest digits and their exponent;
* `Decimal.shortestText` — the text, positional for magnitudes from `10 ^ -4` to below `10 ^ 16`.
-/

set_option autoImplicit false

namespace SelfDual.Decimal

/-- The value, the ends of the interval that reads back as it, and the step of a decimal grid, all
in one unit. -/
structure Grid where
  value : Nat
  low : Nat
  high : Nat
  step : Nat
  closed : Bool

namespace Grid

/-- The double `m · 2 ^ e` and the grid of the multiples of `10 ^ k`. -/
def ofBinary (m : Nat) (e k : Int) : Grid :=
  let unit := Nat.pow 2 (e - 2).toNat * Nat.pow 10 (-k).toNat
  let below := if m = leastMantissa ∧ -1074 < e then 1 else 2
  { value := 4 * m * unit
    low := (4 * m - below) * unit
    high := (4 * m + 2) * unit
    step := Nat.pow 10 k.toNat * Nat.pow 2 (2 - e).toNat
    closed := m % 2 = 0 }

/-- Whether a point reads back as the value. -/
def holds (g : Grid) (point : Nat) : Bool :=
  if g.closed then g.low ≤ point ∧ point ≤ g.high else g.low < point ∧ point < g.high

/-- The multiple of the step that reads back as the value and is nearest to it, if one does; of
two equally near ones the even one. -/
def find? (g : Grid) : Option Nat :=
  let q := g.value / g.step
  let down := q * g.step
  let up := (q + 1) * g.step
  match g.holds down, g.holds up with
  | true, true =>
    let left := g.value - down
    let right := up - g.value
    some (if left < right ∨ (left = right ∧ q % 2 = 0) then q else q + 1)
  | true, false => some q
  | false, true => some (q + 1)
  | false, false => none

end Grid

/-- Tries grids of `digits`, `digits + 1`, … significant digits, at most `more` further ones. -/
def shortestFrom (m : Nat) (e top : Int) (digits : Nat) : Nat → Nat × Int
  | 0 => (m, e)
  | more + 1 =>
    let k := top - digits + 1
    match (Grid.ofBinary m e k).find? with
    | some c => (c, k)
    | none => shortestFrom m e top (digits + 1) more

/-- Coefficient and exponent of ten of the shortest decimal that reads back as `m · 2 ^ e`.
Seventeen digits always suffice. -/
def shortest (m : Nat) (e : Int) : Nat × Int :=
  shortestFrom m e (magnitude (.ofScaled m 2 e)) 1 17

/-- A coefficient without its trailing zeros, and the exponent raised by their number. -/
def dropZeros : Nat → Nat × Int → Nat × Int
  | 0, p => p
  | n + 1, (c, k) => if c % 10 = 0 ∧ c ≠ 0 then dropZeros n (c / 10, k + 1) else (c, k)

/-- Digits with the point `point` places after their start. -/
def placePoint (digits : String) (point : Int) : String :=
  if point ≤ 0 then
    "0." ++ String.ofList (List.replicate (-point).toNat '0') ++ digits
  else if (digits.length : Int) ≤ point then
    digits ++ String.ofList (List.replicate (point - digits.length).toNat '0') ++ ".0"
  else
    (digits.take point.toNat).toString ++ "." ++ (digits.drop point.toNat).toString

/-- The text of `coefficient · 10 ^ k`: positional where the point stands from three places before
the digits to sixteen places after their start, scientific elsewhere. -/
def shortestDigitsText (coefficient : Nat) (k : Int) : String :=
  let digits := coefficient.repr
  let point : Int := digits.length + k
  if -4 < point ∧ point ≤ 16 then placePoint digits point
  else
    let mantissa :=
      if digits.length = 1 then digits
      else (digits.take 1).toString ++ "." ++ (digits.drop 1).toString
    mantissa ++ exponentText .small (point - 1)

/-- The shortest text that reads back as the double. -/
def shortestText (x : Float) : String :=
  match Binary.ofFloat x with
  | .nan => "nan"
  | .infinite negative => signText negative ++ "inf"
  | .finite negative m e =>
    if m = 0 then signText negative ++ "0.0"
    else
      let (c, k) := dropZeros 17 (shortest m e)
      signText negative ++ shortestDigitsText c k

end SelfDual.Decimal
