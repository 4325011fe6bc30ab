/-!
**Doubles as exact numbers.**

A finite double is `± m · 2 ^ e` with natural `m`; this module takes doubles apart into that form
and finds the double nearest to an exact ratio, so that all reading and writing of numbers is
exact arithmetic on natural numbers.

Main definitions:

* `Decimal.Binary` — a double taken apart: sign, mantissa and exponent, or not a finite number;
* `Decimal.Binary.ofFloat` — the parts of a double;
* `Decimal.Ratio` — a nonnegative exact ratio, with its rounding to a natural number;
* `Decimal.nearest` — the double nearest to a ratio, ties to the even mantissa.

Main results:

* `Decimal.Ratio.round_near` — a ratio and what it rounds to differ by a half at most.
-/

set_option autoImplicit false

namespace SelfDual.Decimal

/-! ### Taking a double apart -/

/-- A double taken apart; a finite one is `± mantissa · 2 ^ exponent`. -/
inductive Binary where
  | nan
  | infinite (negative : Bool)
  | finite (negative : Bool) (mantissa : Nat) (exponent : Int)
  deriving DecidableEq, Repr

/-- `2 ^ 52`, the least mantissa of a normal double. -/
def leastMantissa : Nat := 0x10000000000000

/-- `2 ^ 63`, the sign bit. -/
def signBit : Nat := 0x8000000000000000

/-- The parts of the double with the 64 bits `bits`. -/
def Binary.ofBits (bits : Nat) : Binary :=
  let negative : Bool := bits / signBit % 2 = 1
  let field : Nat := bits / leastMantissa % 2048
  let fraction := bits % leastMantissa
  if field = 2047 then
    if fraction = 0 then .infinite negative else .nan
  else if field = 0 then
    .finite negative fraction (-1074)
  else
    .finite negative (fraction + leastMantissa) ((field : Int) - 1075)

/-- The parts of a double. -/
def Binary.ofFloat (x : Float) : Binary :=
  Binary.ofBits x.toBits.toNat

/-! ### Exact ratios -/

/-- The nonnegative number `num / den`. -/
structure Ratio where
  num : Nat
  den : Nat
  deriving DecidableEq, Repr

namespace Ratio

/-- The nonnegative number `m · base ^ e`. -/
def ofScaled (m base : Nat) (e : Int) : Ratio :=
  if 0 ≤ e then ⟨m * Nat.pow base e.toNat, 1⟩ else ⟨m, Nat.pow base (-e).toNat⟩

/-- The ratio divided by `base ^ e`. -/
def scaleDown (q : Ratio) (base : Nat) (e : Int) : Ratio :=
  if 0 ≤ e then ⟨q.num, q.den * Nat.pow base e.toNat⟩
  else ⟨q.num * Nat.pow base (-e).toNat, q.den⟩

/-- The nearest natural number; of two equally near ones the even one. -/
def round (q : Ratio) : Nat :=
  let whole := q.num / q.den
  let rest := q.num % q.den
  if 2 * rest < q.den then whole
  else if q.den < 2 * rest then whole + 1
  else whole + whole % 2

/-- A natural number rounds to itself. -/
@[simp] theorem round_one (n : Nat) : round ⟨n, 1⟩ = n := by
  simp [round, Nat.mod_one]

/-- Rounding is down where the rest is a half at most, or else up. -/
theorem round_cases (q : Ratio) :
    (round q = q.num / q.den ∧ 2 * (q.num % q.den) ≤ q.den) ∨
      (round q = q.num / q.den + 1 ∧ q.den ≤ 2 * (q.num % q.den)) := by
  unfold round
  dsimp only
  split
  · exact .inl ⟨rfl, by omega⟩
  · split
    · exact .inr ⟨rfl, by omega⟩
    · rcases Nat.mod_two_eq_zero_or_one (q.num / q.den) with h | h <;> rw [h]
      · exact .inl ⟨rfl, by omega⟩
      · exact .inr ⟨rfl, by omega⟩

/-- **Rounding is to the nearest**: a ratio and what it rounds to differ by a half at most. -/
theorem round_near {q : Ratio} (h : 0 < q.den) :
    2 * q.num ≤ 2 * (round q * q.den) + q.den ∧ 2 * (round q * q.den) ≤ 2 * q.num + q.den := by
  have hdm : q.num / q.den * q.den + q.num % q.den = q.num := Nat.div_add_mod' q.num q.den
  have hlt : q.num % q.den < q.den := Nat.mod_lt q.num h
  rcases round_cases q with ⟨hr, hle⟩ | ⟨hr, hle⟩
  · rw [hr]
    omega
  · rw [hr, Nat.add_mul, Nat.one_mul]
    omega

end Ratio

/-! ### The nearest double -/

/-- The exponent at which the nonzero ratio has a 53 bit mantissa, or the least exponent of a
double if that is larger. -/
def binaryExponent (q : Ratio) : Int :=
  let guess : Int := (q.num.log2 : Int) - q.den.log2 - 52
  let reached := q.scaleDown 2 guess
  let exact := if reached.num < reached.den * leastMantissa then guess - 1 else guess
  max exact (-1074)

/-- The magnitude bits of the double nearest to the ratio; those of infinity if it is too
large. -/
def nearestBits (q : Ratio) : Nat :=
  if q.num = 0 then 0
  else
    let e := binaryExponent q
    let m := (q.scaleDown 2 e).round
    let carried := m = 2 * leastMantissa
    let m := if carried then leastMantissa else m
    let e := if carried then e + 1 else e
    if 971 < e then 2047 * leastMantissa
    else if m < leastMantissa then m
    else (e + 1075).toNat * leastMantissa + (m - leastMantissa)

/-- The double nearest to the signed ratio; a zero keeps the sign. -/
def nearest (negative : Bool) (q : Ratio) : Float :=
  Float.ofBits (UInt64.ofNat (nearestBits q + if negative then signBit else 0))

/-- The double nearest to an integer. -/
def ofInt (n : Int) : Float :=
  nearest (n < 0) ⟨n.natAbs, 1⟩

end SelfDual.Decimal
