import Mathlib.Algebra.Order.Field.Power
import Mathlib.Data.Rat.Cast.Order
import Mathlib.Tactic.FieldSimp
import Mathlib.Tactic.Linarith
import Mathlib.Tactic.NormNum
import Mathlib.Tactic.Positivity
import Mathlib.Tactic.Ring
import SelfDual.Decimal.Digits
/-!
**Correct rounding.**

A number is rounded correctly to numbers `c · base ^ e` of a given kind if none of them is nearer to
it, and if `c` is even where another one is equally near.  The numbers with a given count of digits
lie, in each decade, on a grid of one unit, and below the decade there are only smaller ones; so
rounding to the grid of the decade is correct among all of them.  This holds for digits of any
base: decimal numbers with some significant digits and binary ones with a mantissa are two cases.

Main definitions:

* `Decimal.Ratio.value` — the rational number that a ratio is;
* `Decimal.RoundsTo` — the nearest natural number, the even one of two;
* `Decimal.IsRounding` — the nearest number `c · base ^ e` of a kind, with an even `c` of two;
* `Decimal.Significant.Rounds` — correct rounding to significant digits.

Main results:

* `Decimal.Ratio.roundsTo_round` — rounding a ratio gives the nearest natural number;
* `Decimal.RoundsTo.preferred_of_digits` — the grid of a decade holds the nearest number;
* `Decimal.isRounding_of_roundsTo` — **rounding to the grid of a decade is correct** among all
  numbers that have no more digits;
* `Decimal.digitCount_le_iff`, `Decimal.magnitude_spec` — the leading digit of a number;
* `Decimal.rounds_significant` — **rounding to significant digits is correct**, where a carry
  changes the exponent too;
* `Decimal.Significant.Rounds.decade`, `Decimal.Significant.Rounds.value_le_of_lt_middle` — what
  follows from correct rounding alone.
-/

set_option autoImplicit false

namespace SelfDual.Decimal

/-! ### The value of a ratio -/

namespace Ratio

/-- The rational number that the ratio is. -/
def value (q : Ratio) : ℚ := q.num / q.den

theorem value_of_num_eq_zero {q : Ratio} (hnum : q.num = 0) : q.value = 0 := by
  rw [value, hnum, Nat.cast_zero, zero_div]

theorem value_pos {q : Ratio} (hnum : q.num ≠ 0) (hden : 0 < q.den) : 0 < q.value :=
  div_pos (by exact_mod_cast Nat.pos_of_ne_zero hnum) (by exact_mod_cast hden)

theorem ofScaled_den_pos {base : ℕ} (hbase : 0 < base) (m : ℕ) (e : ℤ) :
    0 < (ofScaled m base e).den := by
  rw [ofScaled]
  split
  · exact Nat.one_pos
  · exact Nat.pow_pos hbase

/-- The ratio `m · base ^ e` has this value. -/
theorem value_ofScaled (m base : ℕ) (e : ℤ) : (ofScaled m base e).value = m * (base : ℚ) ^ e := by
  rw [ofScaled, value]
  split
  · next he =>
    lift e to ℕ using he
    simp
  · next he =>
    obtain ⟨n, rfl⟩ : ∃ n : ℕ, e = -n := ⟨(-e).toNat, by omega⟩
    simp [div_eq_mul_inv]

theorem scaleDown_den_pos {q : Ratio} (hden : 0 < q.den) {base : ℕ} (hbase : 0 < base) (e : ℤ) :
    0 < (q.scaleDown base e).den := by
  rw [scaleDown]
  split
  · exact Nat.mul_pos hden (Nat.pow_pos hbase)
  · exact hden

/-- A ratio is divided by a power. -/
theorem value_scaleDown (q : Ratio) (base : ℕ) (e : ℤ) :
    (q.scaleDown base e).value = q.value / (base : ℚ) ^ e := by
  rw [scaleDown, value, value]
  split
  · next he =>
    lift e to ℕ using he
    simp [div_div]
  · next he =>
    obtain ⟨n, rfl⟩ : ∃ n : ℕ, e = -n := ⟨(-e).toNat, by omega⟩
    simp [div_eq_mul_inv, mul_right_comm]

end Ratio

/-! ### The nearest natural number -/

/-- The natural number is the nearest to the rational number, and even if another one is equally
near. -/
structure RoundsTo (v : ℚ) (n : ℕ) : Prop where
  near : |v - n| ≤ 1 / 2
  even : |v - n| = 1 / 2 → Even n

namespace RoundsTo

variable {v : ℚ} {n : ℕ}

/-- Every other natural number differs by a half at least. -/
theorem half_le_abs_sub (h : RoundsTo v n) {k : ℕ} (hne : k ≠ n) : 1 / 2 ≤ |v - k| := by
  have hdistinct : (n : ℤ) - k ≠ 0 := sub_ne_zero.2 (by exact_mod_cast hne.symm)
  have hgap : 1 ≤ |(n : ℚ) - k| := by exact_mod_cast Int.one_le_abs hdistinct
  have htriangle : |(n : ℚ) - k| ≤ |v - n| + |v - k| := by
    rw [abs_sub_comm v n]
    exact abs_sub_le _ _ _
  linarith [h.near]

/-- No natural number is nearer. -/
theorem abs_sub_le (h : RoundsTo v n) (k : ℕ) : |v - n| ≤ |v - k| := by
  rcases eq_or_ne k n with rfl | hne
  · exact le_rfl
  · exact h.near.trans (h.half_le_abs_sub hne)

/-- Where another natural number is equally near, the nearest is even. -/
theorem even_of_tie (h : RoundsTo v n) {k : ℕ} (hne : k ≠ n) (htie : |v - k| = |v - n|) :
    Even n :=
  h.even (h.near.antisymm (htie ▸ h.half_le_abs_sub hne))

/-- What does not reach a natural number is not rounded beyond it. -/
theorem le_of_lt (h : RoundsTo v n) {k : ℕ} (hv : v < k) : n ≤ k := by
  have hn : (n : ℚ) < k + 1 := by linarith [(abs_le.1 h.near).1]
  exact Nat.lt_succ_iff.1 (by exact_mod_cast hn)

/-- What reaches a natural number is not rounded below it. -/
theorem le_of_le (h : RoundsTo v n) {k : ℕ} (hv : (k : ℚ) ≤ v) : k ≤ n := by
  have hn : (k : ℚ) < n + 1 := by linarith [(abs_le.1 h.near).2]
  exact Nat.lt_succ_iff.1 (by exact_mod_cast hn)

end RoundsTo

/-- What lies in the middle between two natural numbers is rounded to the even one. -/
theorem Ratio.even_round_of_tie {q : Ratio} (hden : 0 < q.den)
    (htie : 2 * q.num = 2 * (q.round * q.den) + q.den ∨
      2 * q.num + q.den = 2 * (q.round * q.den)) : Even q.round := by
  have hdm : q.num / q.den * q.den + q.num % q.den = q.num := Nat.div_add_mod' q.num q.den
  have hlt : q.num % q.den < q.den := Nat.mod_lt q.num hden
  have hrest : 2 * (q.num % q.den) = q.den := by
    rcases q.round_cases with ⟨hr, hle⟩ | ⟨hr, hle⟩
    · rw [hr] at htie
      omega
    · rw [hr, Nat.add_mul, Nat.one_mul] at htie
      omega
  have hround : q.round = q.num / q.den + q.num / q.den % 2 := by
    simp only [round, hrest, lt_irrefl, if_false]
  rw [hround, Nat.even_iff]
  omega

/-- **Rounding a ratio gives the nearest natural number.** -/
theorem Ratio.roundsTo_round {q : Ratio} (hden : 0 < q.den) : RoundsTo q.value q.round := by
  have hd : (0 : ℚ) < q.den := by exact_mod_cast hden
  have hscaled : q.value * q.den = q.num := div_mul_cancel₀ _ hd.ne'
  constructor
  · obtain ⟨hlow, hhigh⟩ := round_near hden
    have hlow : 2 * (q.value * q.den) ≤ 2 * (q.round * q.den) + q.den := by
      rw [hscaled]
      exact_mod_cast hlow
    have hhigh : 2 * (q.round * q.den : ℚ) ≤ 2 * (q.value * q.den) + q.den := by
      rw [hscaled]
      exact_mod_cast hhigh
    exact abs_le.2 ⟨by nlinarith, by nlinarith⟩
  · intro htie
    refine even_round_of_tie hden ?_
    rcases eq_or_eq_neg_of_abs_eq htie with h | h
    · left
      have hnum : 2 * (q.value * q.den) = 2 * (q.round * q.den) + q.den := by
        rw [sub_eq_iff_eq_add.1 h]
        ring
      rw [hscaled] at hnum
      exact_mod_cast hnum
    · right
      have hnum : 2 * (q.value * q.den) + q.den = 2 * (q.round * q.den) := by
        rw [sub_eq_iff_eq_add.1 h]
        ring
      rw [hscaled] at hnum
      exact_mod_cast hnum

/-! ### The grid of a decade -/

/-- The number `x` with the digits `c` is preferred to `y` as a rounding of `v`: it is no farther,
and if it is equally far, `c` is even. -/
structure Preferred (v x : ℚ) (c : ℕ) (y : ℚ) : Prop where
  near : |v - x| ≤ |v - y|
  even : |v - y| = |v - x| → y ≠ x → Even c

/-- The number `c · base ^ e` is the correct rounding of `v` to the numbers of a kind: it is
preferred to all of them. -/
structure IsRounding (base : ℕ) (kind : ℕ → ℤ → Prop) (v : ℚ) (c : ℕ) (e : ℤ) : Prop where
  mem : kind c e
  preferred : ∀ c' e', kind c' e' → Preferred v (c * (base : ℚ) ^ e) c (c' * (base : ℚ) ^ e')

namespace IsRounding

variable {base : ℕ} {kind : ℕ → ℤ → Prop} {v : ℚ} {c c' : ℕ} {e e' : ℤ}

/-- What does not exceed a number of the kind is not rounded beyond it. -/
theorem le_of_le (h : IsRounding base kind v c e) (hkind : kind c' e')
    (hv : v ≤ c' * (base : ℚ) ^ e') : c * (base : ℚ) ^ e ≤ c' * (base : ℚ) ^ e' := by
  have hnear := (h.preferred c' e' hkind).near
  rw [abs_of_nonpos (a := v - c' * (base : ℚ) ^ e') (by linarith)] at hnear
  linarith [(abs_le.1 hnear).1]

/-- What reaches a number of the kind is not rounded below it. -/
theorem le_of_ge (h : IsRounding base kind v c e) (hkind : kind c' e')
    (hv : c' * (base : ℚ) ^ e' ≤ v) : c' * (base : ℚ) ^ e' ≤ c * (base : ℚ) ^ e := by
  have hnear := (h.preferred c' e' hkind).near
  rw [abs_of_nonneg (a := v - c' * (base : ℚ) ^ e') (by linarith)] at hnear
  linarith [(abs_le.1 hnear).2]

end IsRounding

/-- Zero is rounded to zero. -/
theorem isRounding_zero {base : ℕ} {kind : ℕ → ℤ → Prop} {e : ℤ} (hmem : kind 0 e) :
    IsRounding base kind 0 0 e := by
  refine ⟨hmem, fun c e' _ => ⟨?_, fun _ _ => Even.zero⟩⟩
  rw [Nat.cast_zero, zero_mul, sub_zero, abs_zero]
  exact abs_nonneg _

/-- The nearest natural number of units is preferred to all others. -/
theorem RoundsTo.preferred_mul {v u : ℚ} {c : ℕ} (hu : 0 < u) (h : RoundsTo (v / u) c) (k : ℕ) :
    Preferred v (c * u) c (k * u) := by
  have habs (x : ℚ) : |v - x * u| = |v / u - x| * u := by
    rw [← abs_of_pos hu, ← abs_mul, abs_of_pos hu, sub_mul, div_mul_cancel₀ _ hu.ne']
  constructor
  · rw [habs, habs]
    exact mul_le_mul_of_nonneg_right (h.abs_sub_le k) hu.le
  · rw [habs, habs]
    intro htie hne
    have hne : k ≠ c := fun hk => hne (by rw [hk])
    exact h.even_of_tie hne (mul_right_cancel₀ hu.ne' htie)

/-- Zeros can move from the unit to the digits. -/
theorem mul_zpow_add {base : ℕ} (hbase : 0 < base) (c n : ℕ) (k : ℤ) :
    (c : ℚ) * (base : ℚ) ^ ((n : ℤ) + k) = ((c * base ^ n : ℕ) : ℚ) * (base : ℚ) ^ k := by
  have hb : (base : ℚ) ≠ 0 := by exact_mod_cast hbase.ne'
  rw [zpow_add₀ hb, zpow_natCast, Nat.cast_mul, Nat.cast_pow, mul_assoc]

/-- A number with a shorter unit and no more digits lies below the decade. -/
theorem mul_zpow_lt_of_digits {base places c : ℕ} {k e : ℤ} (hbase : 0 < base)
    (hdigits : c < base ^ (places + 1)) (hlt : e < k) :
    (c : ℚ) * (base : ℚ) ^ e < (base : ℚ) ^ places * (base : ℚ) ^ k := by
  have hb : (0 : ℚ) < base := by exact_mod_cast hbase
  have hc : (c : ℚ) < (base : ℚ) ^ (places + 1) := by exact_mod_cast hdigits
  have hone : (1 : ℚ) ≤ base := by exact_mod_cast hbase
  calc (c : ℚ) * (base : ℚ) ^ e
      < (base : ℚ) ^ (places + 1) * (base : ℚ) ^ e := mul_lt_mul_of_pos_right hc (zpow_pos hb e)
    _ = (base : ℚ) ^ places * (base : ℚ) ^ (e + 1) := by
        rw [pow_succ, zpow_add_one₀ hb.ne']
        ring
    _ ≤ (base : ℚ) ^ places * (base : ℚ) ^ k :=
        mul_le_mul_of_nonneg_left (zpow_le_zpow_right₀ hone hlt) (pow_pos hb _).le

/-- **The grid of a decade holds the nearest number** among all that have no more digits: they lie
on the grid, or below the decade. -/
theorem RoundsTo.preferred_of_digits {base places : ℕ} (hbase : 0 < base) {v : ℚ} {c c' : ℕ}
    {k e : ℤ} (h : RoundsTo (v / (base : ℚ) ^ k) c) (hdigits : c' < base ^ (places + 1))
    (hgrid : k ≤ e ∨ (base : ℚ) ^ places * (base : ℚ) ^ k ≤ v) :
    Preferred v (c * (base : ℚ) ^ k) c (c' * (base : ℚ) ^ e) := by
  have hb : (0 : ℚ) < base := by exact_mod_cast hbase
  have hunit : (0 : ℚ) < (base : ℚ) ^ k := zpow_pos hb k
  rcases le_or_gt k e with hle | hlt
  · obtain ⟨n, rfl⟩ : ∃ n : ℕ, e = n + k := ⟨(e - k).toNat, by omega⟩
    rw [mul_zpow_add hbase]
    exact h.preferred_mul hunit _
  · have hdecade := hgrid.resolve_left hlt.not_ge
    -- the number lies below the decade, whose start is on the grid
    have hbelow := mul_zpow_lt_of_digits hbase hdigits hlt
    have hstart : |v - c * (base : ℚ) ^ k| ≤ v - (base : ℚ) ^ places * (base : ℚ) ^ k := by
      have hnear := (h.preferred_mul hunit (base ^ places)).near
      rwa [Nat.cast_pow, abs_of_nonneg (sub_nonneg.2 hdecade)] at hnear
    have hfar : |v - c * (base : ℚ) ^ k| < |v - c' * (base : ℚ) ^ e| := by
      rw [abs_of_pos (a := v - c' * (base : ℚ) ^ e) (by linarith)]
      linarith
    exact ⟨hfar.le, fun htie => absurd htie hfar.ne'⟩

/-- **Rounding to the grid of a decade is correct** among all numbers of a kind that have no more
digits, where all ones with a shorter unit lie below the decade.  What is rounded up to the next
decade is written with its leading digit. -/
theorem isRounding_of_roundsTo {base places : ℕ} (hbase : 0 < base) (heven : Even base)
    (hplaces : 0 < places) {kind : ℕ → ℤ → Prop} {v : ℚ} {c c' : ℕ} {k e : ℤ}
    (h : RoundsTo (v / (base : ℚ) ^ k) c)
    (hkind : ∀ c' e', kind c' e' →
      c' < base ^ (places + 1) ∧ (k ≤ e' ∨ (base : ℚ) ^ places * (base : ℚ) ^ k ≤ v))
    (hcarry : (c', e) = if c = base ^ (places + 1) then (base ^ places, k + 1) else (c, k))
    (hmem : kind c' e) : IsRounding base kind v c' e := by
  refine ⟨hmem, fun d e' hd => ?_⟩
  obtain ⟨hdigits, hgrid⟩ := hkind d e' hd
  have hpreferred := h.preferred_of_digits hbase hdigits hgrid
  split at hcarry
  · next hc =>
    obtain ⟨rfl, rfl⟩ := Prod.mk.inj hcarry
    have hb : (base : ℚ) ≠ 0 := by exact_mod_cast hbase.ne'
    have hsame : ((base ^ places : ℕ) : ℚ) * (base : ℚ) ^ (k + 1) = c * (base : ℚ) ^ k := by
      rw [hc, Nat.cast_pow, Nat.cast_pow, pow_succ, zpow_add_one₀ hb]
      ring
    rw [hsame]
    exact ⟨hpreferred.near, fun _ _ => heven.pow_of_ne_zero hplaces.ne'⟩
  · obtain ⟨rfl, rfl⟩ := Prod.mk.inj hcarry
    exact hpreferred

/-! ### The leading digit -/

/-- The number of decimal digits is the length of the decimal text. -/
theorem digitCount_eq_length (n : ℕ) : digitCount n = (Nat.toDigits 10 n).length := by
  induction n using digitCount.induct with
  | case1 n h => rw [digitCount_of_lt h, Nat.toDigits_of_lt_base h, List.length_singleton]
  | case2 n h ih =>
    have hle : 10 ≤ n := Nat.le_of_not_lt h
    rw [digitCount_of_le hle, ih, Nat.toDigits_of_base_le (by decide) hle, List.length_append,
      List.length_singleton]

/-- A number has no more digits than a power of ten that exceeds it has zeros. -/
theorem digitCount_le_iff {n k : ℕ} (hk : 0 < k) : digitCount n ≤ k ↔ n < 10 ^ k := by
  rw [digitCount_eq_length]
  exact Nat.length_toDigits_le_iff (by decide) hk

theorem lt_pow_digitCount (n : ℕ) : n < 10 ^ digitCount n :=
  (digitCount_le_iff (digitCount_pos n)).1 le_rfl

theorem pow_digitCount_le {n : ℕ} (hn : n ≠ 0) : 10 ^ (digitCount n - 1) ≤ n := by
  rcases Nat.eq_zero_or_pos (digitCount n - 1) with hzero | hpos
  · rw [hzero]
    exact Nat.one_le_iff_ne_zero.2 hn
  · have hmore : ¬digitCount n ≤ digitCount n - 1 := by omega
    rw [digitCount_le_iff hpos] at hmore
    exact Nat.le_of_not_lt hmore

/-- **The exponent of the leading digit** of a ratio that is not zero. -/
theorem magnitude_spec {q : Ratio} (hnum : q.num ≠ 0) (hden : 0 < q.den) :
    (10 : ℚ) ^ magnitude q ≤ q.value ∧ q.value < (10 : ℚ) ^ (magnitude q + 1) := by
  have hd : (0 : ℚ) < q.den := by exact_mod_cast hden
  have hn : (0 : ℚ) < q.num := by exact_mod_cast Nat.pos_of_ne_zero hnum
  rw [magnitude, Ratio.value, le_div_iff₀ hd, div_lt_iff₀ hd]
  split
  · next hle =>
    have hfloor : q.num / q.den ≠ 0 := (Nat.div_pos hle hden).ne'
    have hlow : 10 ^ (digitCount (q.num / q.den) - 1) * q.den ≤ q.num :=
      (Nat.le_div_iff_mul_le hden).1 (pow_digitCount_le hfloor)
    have hhigh : q.num < 10 ^ digitCount (q.num / q.den) * q.den :=
      (Nat.div_lt_iff_lt_mul hden).1 (lt_pow_digitCount _)
    obtain ⟨k, hk⟩ := Nat.exists_eq_succ_of_ne_zero (digitCount_pos (q.num / q.den)).ne'
    rw [hk] at hlow hhigh ⊢
    constructor
    · simpa using by exact_mod_cast hlow
    · simpa using by exact_mod_cast hhigh
  · next hlt =>
    have hle : q.num ≤ q.den := Nat.le_of_not_le hlt
    have hpos : 0 < q.num := Nat.pos_of_ne_zero hnum
    have hfloor : q.den / q.num ≠ 0 := (Nat.div_pos hle hpos).ne'
    have hlow : 10 ^ (digitCount (q.den / q.num) - 1) * q.num ≤ q.den :=
      (Nat.le_div_iff_mul_le hpos).1 (pow_digitCount_le hfloor)
    have hhigh : q.den < 10 ^ digitCount (q.den / q.num) * q.num :=
      (Nat.div_lt_iff_lt_mul hpos).1 (lt_pow_digitCount _)
    obtain ⟨k, hk⟩ := Nat.exists_eq_succ_of_ne_zero (digitCount_pos (q.den / q.num)).ne'
    rw [hk, Nat.succ_sub_one] at hlow
    rw [hk] at hhigh
    simp only [hk, Nat.succ_sub_one, Nat.pow_eq]
    have hpow (n : ℕ) : (0 : ℚ) < 10 ^ n := by positivity
    -- the only number of the lower decade is its start
    split
    · next hstart =>
      have hexponent : 1 - ((k.succ : ℕ) : ℤ) = -(k : ℤ) := by omega
      rw [hexponent, zpow_add_one₀ (by norm_num), zpow_neg, zpow_natCast, mul_assoc,
        inv_mul_le_iff₀ (hpow k), lt_inv_mul_iff₀ (hpow k)]
      constructor
      · exact_mod_cast (by rwa [Nat.mul_comm] at hstart : q.den ≤ 10 ^ k * q.num)
      · have hlow : (10 : ℚ) ^ k * q.num ≤ q.den := by exact_mod_cast hlow
        linarith
    · next hinside =>
      have hexponent : -((k.succ : ℕ) : ℤ) + 1 = -(k : ℤ) := by omega
      rw [hexponent, zpow_neg, zpow_neg, zpow_natCast, zpow_natCast,
        inv_mul_le_iff₀ (hpow k.succ), lt_inv_mul_iff₀ (hpow k)]
      constructor
      · exact_mod_cast hhigh.le
      · exact_mod_cast (by rwa [not_le, Nat.mul_comm] at hinside : 10 ^ k * q.num < q.den)

/-- Powers of ten, counted in units some places behind a power. -/
theorem pow_mul_unit (places n : ℕ) (k : ℤ) :
    (10 : ℚ) ^ n * (10 : ℚ) ^ (k - places) = (10 : ℚ) ^ (k + (n - places)) := by
  rw [← zpow_natCast, ← zpow_add₀ (by norm_num)]
  congr 1
  ring

/-- The same for a unit some places behind the leading digit. -/
theorem magnitude_unit_spec (places : ℕ) {q : Ratio} (hnum : q.num ≠ 0) (hden : 0 < q.den) :
    (10 : ℚ) ^ places * (10 : ℚ) ^ (magnitude q - places) ≤ q.value ∧
      q.value < (10 : ℚ) ^ (places + 1) * (10 : ℚ) ^ (magnitude q - places) := by
  have hspec := magnitude_spec hnum hden
  rwa [pow_mul_unit, pow_mul_unit, sub_self, add_zero, Nat.cast_succ, add_sub_cancel_left]

/-- Between two neighbours with so many digits there is no other number that has no more. -/
theorem succ_mul_le_of_digits {places n c : ℕ} {k e : ℤ} (hn : 10 ^ places ≤ n)
    (hc : c < 10 ^ (places + 1)) (h : n * (10 : ℚ) ^ k < c * (10 : ℚ) ^ e) :
    (n + 1) * (10 : ℚ) ^ k ≤ c * (10 : ℚ) ^ e := by
  have hunit : (0 : ℚ) < (10 : ℚ) ^ k := zpow_pos (by norm_num) k
  rcases le_or_gt k e with hle | hlt
  · obtain ⟨d, rfl⟩ : ∃ d : ℕ, e = d + k := ⟨(e - k).toNat, by omega⟩
    have hmove := mul_zpow_add (by decide : 0 < 10) c d k
    rw [Nat.cast_ofNat] at hmove
    rw [hmove] at h ⊢
    have hgrid : n < c * 10 ^ d := by exact_mod_cast lt_of_mul_lt_mul_right h hunit.le
    exact mul_le_mul_of_nonneg_right (by exact_mod_cast hgrid) hunit.le
  · have hbelow := mul_zpow_lt_of_digits (by decide : 0 < 10) hc hlt
    rw [Nat.cast_ofNat] at hbelow
    have hn : (10 : ℚ) ^ places ≤ n := by exact_mod_cast hn
    have hstart := mul_le_mul_of_nonneg_right hn hunit.le
    exact absurd (h.trans hbelow) hstart.not_gt

/-! ### Significant digits -/

/-- The number that is written with so many digits after the leading one. -/
def Significant.value (places : ℕ) (s : Significant) : ℚ :=
  s.coefficient * (10 : ℚ) ^ (s.exponent - places)

/-- **Correct rounding to significant digits**: no number with so many digits after the leading one,
of whatever size, is nearer, and the last digit is even if another one is equally near.  The leading
digit is not zero, unless all is zero. -/
structure Significant.Rounds (places : ℕ) (v : ℚ) (s : Significant) : Prop where
  rounding : IsRounding 10 (fun c _ => c < 10 ^ (places + 1)) v s.coefficient (s.exponent - places)
  leading : v ≠ 0 → 10 ^ places ≤ s.coefficient
  zero : v = 0 → s = ⟨0, 0⟩

namespace Significant.Rounds

variable {places : ℕ} {v : ℚ} {s : Significant} {c : ℕ} {e : ℤ}

/-- No number with so many digits is nearer. -/
theorem near (h : s.Rounds places v) (hc : c < 10 ^ (places + 1)) :
    |v - s.value places| ≤ |v - c * (10 : ℚ) ^ e| := by
  have hnear := (h.rounding.preferred c e hc).near
  rwa [Nat.cast_ofNat] at hnear

/-- What does not exceed a number with so many digits is not rounded beyond it. -/
theorem value_le_of_le (h : s.Rounds places v) (hc : c < 10 ^ (places + 1))
    (hv : v ≤ c * (10 : ℚ) ^ e) : s.value places ≤ c * (10 : ℚ) ^ e := by
  have hle := h.rounding.le_of_le hc (by rwa [Nat.cast_ofNat])
  rwa [Nat.cast_ofNat] at hle

/-- What reaches a number with so many digits is not rounded below it. -/
theorem le_value_of_le (h : s.Rounds places v) (hc : c < 10 ^ (places + 1))
    (hv : c * (10 : ℚ) ^ e ≤ v) : c * (10 : ℚ) ^ e ≤ s.value places := by
  have hle := h.rounding.le_of_ge hc (by rwa [Nat.cast_ofNat])
  rwa [Nat.cast_ofNat] at hle

/-- The number lies in the decade of its exponent. -/
theorem decade (h : s.Rounds places v) (hv : v ≠ 0) :
    (10 : ℚ) ^ s.exponent ≤ s.value places ∧ s.value places < (10 : ℚ) ^ (s.exponent + 1) := by
  have hunit : (0 : ℚ) < (10 : ℚ) ^ (s.exponent - places) := zpow_pos (by norm_num) _
  have hlow : (10 : ℚ) ^ places ≤ s.coefficient := by exact_mod_cast h.leading hv
  have hhigh : (s.coefficient : ℚ) < (10 : ℚ) ^ (places + 1) := by exact_mod_cast h.rounding.mem
  have hstart := pow_mul_unit places places s.exponent
  have hend := pow_mul_unit places (places + 1) s.exponent
  rw [sub_self, add_zero] at hstart
  rw [Nat.cast_succ, add_sub_cancel_left] at hend
  rw [← hstart, ← hend]
  exact ⟨mul_le_mul_of_nonneg_right hlow hunit.le, mul_lt_mul_of_pos_right hhigh hunit⟩

/-- What reaches a power of ten has its exponent at least. -/
theorem le_exponent (h : s.Rounds places v) {k : ℤ} (hv : (10 : ℚ) ^ k ≤ v) : k ≤ s.exponent := by
  have hpos : v ≠ 0 := ((zpow_pos (by norm_num) k).trans_le hv).ne'
  have hone : 1 < 10 ^ (places + 1) := Nat.one_lt_pow places.succ_ne_zero (by decide)
  have hreached := h.le_value_of_le (c := 1) (e := k) hone (by rwa [Nat.cast_one, one_mul])
  rw [Nat.cast_one, one_mul] at hreached
  have hlt := (zpow_lt_zpow_iff_right₀ (by norm_num)).1 (hreached.trans_lt (h.decade hpos).2)
  omega

/-- What lies below the middle of two neighbours with so many digits is not rounded beyond the lower
one. -/
theorem value_le_of_lt_middle (h : s.Rounds places v) {n : ℕ} {k : ℤ} (hn : 10 ^ places ≤ n)
    (hdigits : n < 10 ^ (places + 1)) (hv : 2 * v < (2 * n + 1) * (10 : ℚ) ^ k) :
    s.value places ≤ n * (10 : ℚ) ^ k := by
  rcases le_or_gt v (n * (10 : ℚ) ^ k) with hle | hgt
  · exact h.value_le_of_le hdigits hle
  · by_contra hbeyond
    have hnext := succ_mul_le_of_digits hn h.rounding.mem (not_le.1 hbeyond)
    have hnear := h.near (e := k) hdigits
    rw [abs_of_pos (a := v - n * (10 : ℚ) ^ k) (by linarith)] at hnear
    have hlower := (abs_le.1 hnear).1
    rw [← Significant.value] at hnext
    linarith

end Significant.Rounds

/-- **Rounding to significant digits is correct.** -/
theorem rounds_significant {places : ℕ} (hplaces : 0 < places) {q : Ratio} (hden : 0 < q.den) :
    (significant places q).Rounds places q.value := by
  rw [significant]
  split
  · next hzero =>
    rw [Ratio.value_of_num_eq_zero hzero]
    exact ⟨isRounding_zero (Nat.pow_pos (by decide)), fun h => absurd rfl h, fun _ => rfl⟩
  · next hnum =>
    obtain ⟨hstart, hend⟩ := magnitude_unit_spec places hnum hden
    dsimp only
    generalize magnitude q = k at hstart hend ⊢
    have hunit : (0 : ℚ) < (10 : ℚ) ^ (k - places) := zpow_pos (by norm_num) _
    have hround := Ratio.roundsTo_round
      (Ratio.scaleDown_den_pos hden (by decide : 0 < 10) (k - places))
    rw [Ratio.value_scaleDown] at hround
    generalize (q.scaleDown 10 (k - places)).round = c at hround ⊢
    have hge : 10 ^ places ≤ c := hround.le_of_le <| by
      rw [Nat.cast_ofNat, le_div_iff₀ hunit]
      exact_mod_cast hstart
    have hle : c ≤ 10 ^ (places + 1) := hround.le_of_lt <| by
      rw [Nat.cast_ofNat, div_lt_iff₀ hunit]
      exact_mod_cast hend
    have hkind : ∀ (c' : ℕ) (e' : ℤ), c' < 10 ^ (places + 1) → c' < 10 ^ (places + 1) ∧
        (k - places ≤ e' ∨ ((10 : ℕ) : ℚ) ^ places * ((10 : ℕ) : ℚ) ^ (k - places) ≤ q.value) :=
      fun c' e' hc' => ⟨hc', .inr (by exact_mod_cast hstart)⟩
    have hvalue : q.value ≠ 0 := (Ratio.value_pos hnum hden).ne'
    rw [Nat.pow_eq, Nat.pow_eq]
    split
    · next hcarry =>
      have hexponent : k + 1 - (places : ℤ) = k - places + 1 := by omega
      refine ⟨?_, fun _ => le_rfl, fun h => absurd h hvalue⟩
      rw [hexponent]
      exact isRounding_of_roundsTo (by decide) (by decide) hplaces hround hkind
        (if_pos hcarry).symm (Nat.pow_lt_pow_succ (by decide))
    · next hcarry =>
      refine ⟨?_, fun _ => hge, fun h => absurd h hvalue⟩
      exact isRounding_of_roundsTo (by decide) (by decide) hplaces hround hkind
        (if_neg hcarry).symm (lt_of_le_of_ne hle hcarry)

end SelfDual.Decimal
