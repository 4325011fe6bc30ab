import SelfDual.Decimal.Binary
/-!
**Decimal digits of a number.**

Rounding to a given number of significant digits or of places, always from the exact value and
with ties to the even digit.

Main definitions:

* `Decimal.digitCount` — the number of decimal digits of a natural number;
* `Decimal.magnitude` — the exponent of ten of the leading digit of a ratio;
* `Decimal.Significant` — a number of fixed precision, `coefficient · 10 ^ (exponent - places)`;
* `Decimal.significant` — the nearest such number.
-/

set_option autoImplicit false

namespace SelfDual.Decimal

/-- The number of decimal digits of `n`; zero has one. -/
def digitCount (n : Nat) : Nat :=
  if n < 10 then 1 else digitCount (n / 10) + 1
termination_by n
decreasing_by omega

theorem digitCount_of_lt {n : Nat} (h : n < 10) : digitCount n = 1 := by
  rw [digitCount, if_pos h]

theorem digitCount_of_le {n : Nat} (h : 10 ≤ n) : digitCount n = digitCount (n / 10) + 1 := by
  rw [digitCount, if_neg (by omega)]

theorem digitCount_pos (n : Nat) : 0 < digitCount n := by
  rw [digitCount]
  split <;> omega

/-- The exponent `k` with `10 ^ k ≤ q < 10 ^ (k + 1)`, for a ratio that is not zero. -/
def magnitude (q : Ratio) : Int :=
  if q.den ≤ q.num then
    (digitCount (q.num / q.den) : Int) - 1
  else
    let k := digitCount (q.den / q.num)
    if q.den ≤ q.num * Nat.pow 10 (k - 1) then 1 - (k : Int) else -(k : Int)

/-- The number `coefficient · 10 ^ (exponent - places)`, where `places` is the number of digits
after the leading one. -/
structure Significant where
  coefficient : Nat
  exponent : Int
  deriving DecidableEq, Repr

/-- The nearest number with `places` digits after the leading one; zero has the exponent 0. -/
def significant (places : Nat) (q : Ratio) : Significant :=
  if q.num = 0 then ⟨0, 0⟩
  else
    let k := magnitude q
    let c := (q.scaleDown 10 (k - places)).round
    if c = Nat.pow 10 (places + 1) then ⟨Nat.pow 10 places, k + 1⟩ else ⟨c, k⟩

/-- The number of units of `10 ^ -places` nearest to the ratio. -/
def atPlaces (places : Nat) (q : Ratio) : Nat :=
  (q.scaleDown 10 (-(places : Int))).round

end SelfDual.Decimal
