import Mathlib
import SelfDual.Proofs.Rounding
/-!
**Doubles and the numbers next to them.**

A finite double is `± m · 2 ^ e` with a mantissa below `2 ^ 53` and an exponent from `-1074` to
`971`.  This module compares the parts of a double with its bits as the arithmetic of doubles sees
them, and shows that the double found for a ratio is the correct rounding of it.  There is no nearer
magnitude even if exponents above 971 are allowed; where the nearest one has such an exponent, the
double is infinite.

Main definitions:

* `Decimal.IsMagnitude` — mantissas and exponents of doubles, the exponent not bounded above.

Main results:

* `Decimal.Binary.exists_finite_iff` — a double has a mantissa and an exponent if it is finite;
* `Decimal.Binary.bounds_of_finite` — the bounds of the two;
* `Decimal.nearest_cases` — **the double of a ratio is its correct rounding**, or infinite;
* `Decimal.nearest_of_le` — a ratio that does not exceed the greatest double has a finite one.
-/

set_option autoImplicit false

namespace SelfDual.Decimal

open Float.Model

/-! ### The bits of a double -/

theorem leastMantissa_eq : leastMantissa = 2 ^ 52 := by decide

theorem signBit_eq : signBit = 2 ^ 63 := by decide

theorem toNat_unpackMantissa (b : BitVec Format.binary64.numBits) :
    (UnpackedFloat.unpackMantissa b).toNat = b.toNat % leastMantissa := by
  rw [UnpackedFloat.unpackMantissa_def, BitVec.extractLsb'_toNat, Nat.shiftRight_zero]
  rfl

theorem toNat_unpackExponent (b : BitVec Format.binary64.numBits) :
    (UnpackedFloat.unpackExponent b).toNat = b.toNat / leastMantissa % 2048 := by
  rw [UnpackedFloat.unpackExponent_def, BitVec.extractLsb'_toNat, Nat.shiftRight_eq_div_pow]
  rfl

/-- The field of the exponent is full exactly for what is not finite. -/
theorem unpackExponent_eq_iff (b : BitVec Format.binary64.numBits) :
    UnpackedFloat.unpackExponent b = -1#_ ↔ b.toNat / leastMantissa % 2048 = 2047 := by
  rw [← toNat_unpackExponent, ← BitVec.toNat_inj]
  rfl

theorem isFinite_unpack_iff (b : BitVec Format.binary64.numBits) :
    (UnpackedFloat.unpack Format.binary64 b).isFinite = true ↔
      b.toNat / leastMantissa % 2048 ≠ 2047 := by
  rw [ne_eq, ← unpackExponent_eq_iff]
  by_cases hexponent : UnpackedFloat.unpackExponent b = -1#_
  · by_cases hmantissa : UnpackedFloat.unpackMantissa b = 0#_ <;>
      simp [UnpackedFloat.unpack, UnpackedFloat.isFinite, hexponent, hmantissa]
  · rw [UnpackedFloat.unpack, if_neg hexponent]
    split_ifs <;> exact iff_of_true rfl hexponent

/-- The bits of a double are kept, unless they are those of a NaN. -/
theorem toBits_ofBits {bits : UInt64}
    (h : bits.toNat / leastMantissa % 2048 = 2047 → bits.toNat % leastMantissa = 0) :
    (Float.ofBits bits).toBits = bits := by
  have hnumber : ¬@UnpackedFloat.isNaNBits Format.binary64 bits.toBitVec := by
    rw [UnpackedFloat.isNaNBits, decide_eq_true_eq, unpackExponent_eq_iff]
    rintro ⟨hexponent, hmantissa⟩
    refine hmantissa (BitVec.eq_of_toNat_eq ?_)
    rw [toNat_unpackMantissa]
    exact h hexponent
  have hpack := @UnpackedFloat.pack_unpack Format.binary64 bits.toBitVec
  rw [if_neg hnumber] at hpack
  exact UInt64.toBitVec_inj.1 hpack

/-! ### The parts of a double -/

namespace Binary

/-- **A double has a mantissa and an exponent exactly if it is finite.** -/
theorem exists_finite_iff {x : Float} :
    (∃ negative m e, ofFloat x = .finite negative m e) ↔ x.isFinite = true := by
  have hx : x.isFinite = true ↔ x.toBits.toNat / leastMantissa % 2048 ≠ 2047 :=
    isFinite_unpack_iff _
  simp only [hx, ofFloat, ofBits]
  split_ifs with hfield <;> simp [hfield]

/-- The bounds of the mantissa and the exponent. -/
theorem bounds_of_finite {x : Float} {negative : Bool} {m : ℕ} {e : ℤ}
    (h : ofFloat x = .finite negative m e) : m < 2 ^ 53 ∧ -1074 ≤ e ∧ e ≤ 971 := by
  simp only [ofFloat, ofBits, leastMantissa_eq] at h
  split_ifs at h with hfield hfraction hfield'
  · cases h
    omega
  · cases h
    omega

/-- The parts of the double with a given sign, field of the exponent and fraction. -/
theorem ofFloat_ofBits (negative : Bool) (field fraction : ℕ) (hfield : field ≤ 2047)
    (hfraction : fraction < 2 ^ 52) (hnumber : field = 2047 → fraction = 0) :
    ofFloat (.ofBits (.ofNat (field * 2 ^ 52 + fraction + if negative then signBit else 0))) =
      if field = 2047 then .infinite negative
      else if field = 0 then .finite negative fraction (-1074)
      else .finite negative (fraction + 2 ^ 52) (field - 1075) := by
  obtain ⟨bits, hbits⟩ : ∃ bits,
      bits = field * 2 ^ 52 + fraction + if negative then signBit else 0 := ⟨_, rfl⟩
  have hlt : bits < 2 ^ 64 := by
    rw [hbits, signBit_eq]
    split <;> omega
  have hsign : (bits / signBit % 2 = 1) = negative := by
    rw [hbits, signBit_eq]
    cases negative <;> simp <;> omega
  have hexponent : bits / leastMantissa % 2048 = field := by
    rw [hbits, signBit_eq, leastMantissa_eq]
    split <;> omega
  have hmantissa : bits % leastMantissa = fraction := by
    rw [hbits, signBit_eq, leastMantissa_eq]
    split <;> omega
  have htoNat : (UInt64.ofNat bits).toNat = bits := UInt64.toNat_ofNat_of_lt hlt
  have htoBits : (Float.ofBits (.ofNat bits)).toBits = .ofNat bits := toBits_ofBits <| by
    rw [htoNat, hexponent, hmantissa]
    exact hnumber
  rw [← hbits, ofFloat, htoBits, htoNat, ofBits]
  simp only [hexponent, hmantissa, hsign, Bool.decide_eq_true]
  rw [leastMantissa_eq]
  by_cases hfull : field = 2047
  · rw [if_pos hfull, if_pos hfull, if_pos (hnumber hfull)]
  · rw [if_neg hfull, if_neg hfull]

end Binary

/-! ### The exponent of a mantissa -/

/-- The logarithms of numerator and denominator bound a ratio. -/
theorem value_bounds {q : Ratio} (hnum : q.num ≠ 0) (hden : 0 < q.den) {guess : ℤ}
    (hguess : guess = (q.num.log2 : ℤ) - q.den.log2 - 52) :
    (2 : ℚ) ^ 51 * (2 : ℚ) ^ guess ≤ q.value ∧ q.value < (2 : ℚ) ^ 53 * (2 : ℚ) ^ guess := by
  have hd : (0 : ℚ) < q.den := by exact_mod_cast hden
  have hshift (n : ℕ) (e : ℤ) : (2 : ℚ) ^ n * (2 : ℚ) ^ e = (2 : ℚ) ^ (n + e) := by
    rw [zpow_add₀ two_ne_zero, zpow_natCast]
  have hnum_low : (2 : ℚ) ^ q.num.log2 ≤ q.num := by exact_mod_cast Nat.log2_self_le hnum
  have hnum_high : (q.num : ℚ) < (2 : ℚ) ^ (q.num.log2 + 1) := by exact_mod_cast Nat.lt_log2_self
  have hden_low : (2 : ℚ) ^ q.den.log2 ≤ q.den := by exact_mod_cast Nat.log2_self_le hden.ne'
  have hden_high : (q.den : ℚ) < (2 : ℚ) ^ (q.den.log2 + 1) := by exact_mod_cast Nat.lt_log2_self
  rw [hshift, hshift, Ratio.value, le_div_iff₀ hd, div_lt_iff₀ hd]
  constructor
  · calc (2 : ℚ) ^ ((51 : ℕ) + guess) * q.den
        ≤ (2 : ℚ) ^ ((51 : ℕ) + guess) * (2 : ℚ) ^ (q.den.log2 + 1) :=
          mul_le_mul_of_nonneg_left hden_high.le (zpow_pos two_pos _).le
      _ = (2 : ℚ) ^ q.num.log2 := by
          rw [mul_comm, hshift, hguess, ← zpow_natCast]
          congr 1
          push_cast
          ring
      _ ≤ q.num := hnum_low
  · calc (q.num : ℚ) < (2 : ℚ) ^ (q.num.log2 + 1) := hnum_high
      _ = (2 : ℚ) ^ ((53 : ℕ) + guess) * (2 : ℚ) ^ q.den.log2 := by
          rw [mul_comm, hshift, hguess, ← zpow_natCast]
          congr 1
          push_cast
          ring
      _ ≤ (2 : ℚ) ^ ((53 : ℕ) + guess) * q.den :=
          mul_le_mul_of_nonneg_left hden_low (zpow_pos two_pos _).le

/-- **The exponent at which a ratio has a 53 bit mantissa**, or the least one of a double. -/
theorem binaryExponent_spec {q : Ratio} (hnum : q.num ≠ 0) (hden : 0 < q.den) :
    -1074 ≤ binaryExponent q ∧
    q.value < (2 : ℚ) ^ 53 * (2 : ℚ) ^ binaryExponent q ∧
    ((2 : ℚ) ^ 52 * (2 : ℚ) ^ binaryExponent q ≤ q.value ∨ binaryExponent q = -1074) := by
  obtain ⟨guess, hguess⟩ : ∃ guess : ℤ, guess = (q.num.log2 : ℤ) - q.den.log2 - 52 := ⟨_, rfl⟩
  have hunit : (0 : ℚ) < (2 : ℚ) ^ guess := zpow_pos two_pos _
  obtain ⟨hlow, hhigh⟩ := value_bounds hnum hden hguess
  have hreached : (q.scaleDown 2 guess).num < (q.scaleDown 2 guess).den * leastMantissa ↔
      q.value < (2 : ℚ) ^ 52 * (2 : ℚ) ^ guess := by
    have hpos : (0 : ℚ) < (q.scaleDown 2 guess).den := by
      exact_mod_cast Ratio.scaleDown_den_pos hden two_pos guess
    have hvalue := Ratio.value_scaleDown q 2 guess
    rw [← div_lt_iff₀ hunit, ← Nat.cast_ofNat (R := ℚ) (n := 2), ← hvalue, Ratio.value,
      div_lt_iff₀ hpos, leastMantissa_eq, Nat.mul_comm]
    exact_mod_cast Iff.rfl
  have hhalf (n : ℕ) :
      (2 : ℚ) ^ (n + 1) * (2 : ℚ) ^ (guess - 1) = (2 : ℚ) ^ n * (2 : ℚ) ^ guess := by
    rw [zpow_sub_one₀ two_ne_zero, pow_succ]
    ring
  -- the guess is right or one too large
  obtain ⟨exact, hexact, hstart, hend⟩ : ∃ exact : ℤ,
      binaryExponent q = max exact (-1074) ∧ (2 : ℚ) ^ 52 * (2 : ℚ) ^ exact ≤ q.value ∧
        q.value < (2 : ℚ) ^ 53 * (2 : ℚ) ^ exact := by
    by_cases h : (q.scaleDown 2 guess).num < (q.scaleDown 2 guess).den * leastMantissa
    · refine ⟨guess - 1, ?_, ?_, ?_⟩
      · rw [binaryExponent, ← hguess]
        exact congrArg (max · _) (if_pos h)
      · rw [hhalf]
        exact hlow
      · rw [hhalf]
        exact hreached.1 h
    · refine ⟨guess, ?_, ?_, hhigh⟩
      · rw [binaryExponent, ← hguess]
        exact congrArg (max · _) (if_neg h)
      · exact not_lt.1 (mt hreached.2 h)
  rw [hexact]
  refine ⟨le_max_right _ _, ?_, ?_⟩
  · refine hend.trans_le (mul_le_mul_of_nonneg_left ?_ (by positivity))
    exact zpow_le_zpow_right₀ one_le_two (le_max_left _ _)
  · rcases le_total exact (-1074) with h | h
    · exact .inr (max_eq_right h)
    · rw [max_eq_left h]
      exact .inl hstart

/-! ### The nearest double -/

/-- The mantissa and the exponent of a double, but for the upper bound of the exponent. -/
def IsMagnitude (m : ℕ) (e : ℤ) : Prop := m < 2 ^ 53 ∧ -1074 ≤ e

/-- The bits that are found are those of the correct rounding, or of infinity where its exponent is
too large. -/
theorem exists_isRounding_nearestBits {q : Ratio} (hden : 0 < q.den) :
    ∃ m e, IsRounding 2 IsMagnitude q.value m e ∧ (2 ^ 52 ≤ m ∨ e = -1074) ∧
      nearestBits q =
        if 971 < e then 2047 * leastMantissa
        else if m < leastMantissa then m
        else (e + 1075).toNat * leastMantissa + (m - leastMantissa) := by
  rw [nearestBits]
  split
  · next hzero =>
    rw [Ratio.value_of_num_eq_zero hzero]
    exact ⟨0, -1074, isRounding_zero ⟨by norm_num, le_rfl⟩, .inr rfl, rfl⟩
  · next hnum =>
    obtain ⟨hleast, hend, hstart⟩ := binaryExponent_spec hnum hden
    dsimp only
    generalize binaryExponent q = k at hleast hend hstart ⊢
    have hunit : (0 : ℚ) < (2 : ℚ) ^ k := zpow_pos two_pos _
    have hround := Ratio.roundsTo_round (Ratio.scaleDown_den_pos hden two_pos k)
    rw [Ratio.value_scaleDown] at hround
    generalize (q.scaleDown 2 k).round = c at hround ⊢
    have hge : 2 ^ 52 ≤ c ∨ k = -1074 := hstart.imp_left fun h => hround.le_of_le <| by
      rw [Nat.cast_ofNat, le_div_iff₀ hunit]
      exact_mod_cast h
    have hle : c ≤ 2 ^ 53 := hround.le_of_lt <| by
      rw [Nat.cast_ofNat, div_lt_iff₀ hunit]
      exact_mod_cast hend
    have hkind : ∀ c' e', IsMagnitude c' e' → c' < 2 ^ (52 + 1) ∧
        (k ≤ e' ∨ ((2 : ℕ) : ℚ) ^ 52 * ((2 : ℕ) : ℚ) ^ k ≤ q.value) := by
      rintro c' e' ⟨hc', he'⟩
      refine ⟨hc', ?_⟩
      rcases hstart with hstart | rfl
      · exact .inr (by exact_mod_cast hstart)
      · exact .inl he'
    have hcarry : 2 * leastMantissa = 2 ^ (52 + 1) := by decide
    rw [hcarry]
    by_cases hc : c = 2 ^ (52 + 1)
    · simp only [hc, if_true]
      refine ⟨leastMantissa, k + 1, ?_, .inl leastMantissa_eq.ge, rfl⟩
      refine isRounding_of_roundsTo two_pos even_two (by decide) hround hkind ?_ ?_
      · rw [if_pos hc, leastMantissa_eq]
      · exact ⟨by decide, by omega⟩
    · simp only [hc, if_false]
      refine ⟨c, k, ?_, hge, rfl⟩
      refine isRounding_of_roundsTo two_pos even_two (by decide) hround hkind ?_ ?_
      · rw [if_neg hc]
      · exact ⟨lt_of_le_of_ne hle hc, hleast⟩

/-- **The double of a ratio is its correct rounding**, or infinite where the exponent of that is too
large. -/
theorem nearest_cases (negative : Bool) {q : Ratio} (hden : 0 < q.den) :
    ∃ m e, IsRounding 2 IsMagnitude q.value m e ∧ (971 < e → 2 ^ 52 ≤ m) ∧
      Binary.ofFloat (nearest negative q) =
        if 971 < e then .infinite negative else .finite negative m e := by
  obtain ⟨m, e, hround, hnormal, hbits⟩ := exists_isRounding_nearestBits hden
  obtain ⟨hm, he⟩ := hround.mem
  refine ⟨m, e, hround, by omega, ?_⟩
  rw [nearest, hbits, leastMantissa_eq]
  split
  · next hlarge =>
    have hparts := Binary.ofFloat_ofBits negative 2047 0 le_rfl (by decide) fun _ => rfl
    simpa using hparts
  · next hsmall =>
    split
    · next hsubnormal =>
      obtain rfl : e = -1074 := hnormal.resolve_left (by omega)
      have hparts := Binary.ofFloat_ofBits negative 0 m (by decide) hsubnormal
        fun h => absurd h (by decide)
      simpa using hparts
    · next hle =>
      obtain ⟨field, hfield⟩ : ∃ field : ℕ, e = field - 1075 := ⟨(e + 1075).toNat, by omega⟩
      have hparts := Binary.ofFloat_ofBits negative field (m - 2 ^ 52) (by omega) (by omega)
        (by omega)
      have htoNat : (e + 1075).toNat = field := by omega
      rw [htoNat, hparts, if_neg (by omega), if_neg (by omega), hfield,
        Nat.sub_add_cancel (by omega)]

/-- **A ratio that does not exceed the greatest double has a finite one**, its correct rounding. -/
theorem nearest_of_le (negative : Bool) {q : Ratio} (hden : 0 < q.den)
    (hle : q.value ≤ (2 ^ 53 - 1) * (2 : ℚ) ^ (971 : ℤ)) :
    ∃ m e, IsRounding 2 IsMagnitude q.value m e ∧
      Binary.ofFloat (nearest negative q) = .finite negative m e := by
  obtain ⟨m, e, hround, hlarge, hparts⟩ := nearest_cases negative hden
  refine ⟨m, e, hround, ?_⟩
  rw [hparts, if_neg]
  intro he
  have hgreatest : IsMagnitude (2 ^ 53 - 1) 971 := ⟨by norm_num, by norm_num⟩
  have hmantissa : ((2 ^ 53 - 1 : ℕ) : ℚ) = 2 ^ 53 - 1 := by norm_num
  have hbound := hround.le_of_le hgreatest (by rwa [hmantissa, Nat.cast_ofNat])
  have hm : (2 : ℚ) ^ 52 ≤ m := by exact_mod_cast hlarge he
  have hpow : (2 : ℚ) ^ (971 + 1 : ℤ) ≤ (2 : ℚ) ^ e := zpow_le_zpow_right₀ one_le_two he
  have habove : (2 : ℚ) ^ 52 * ((2 : ℚ) ^ (971 : ℤ) * 2) ≤ m * (2 : ℚ) ^ e := by
    rw [← zpow_add_one₀ two_ne_zero]
    exact mul_le_mul hm hpow (zpow_pos two_pos _).le (Nat.cast_nonneg m)
  rw [hmantissa, Nat.cast_ofNat] at hbound
  have hunit : (0 : ℚ) < (2 : ℚ) ^ (971 : ℤ) := zpow_pos two_pos _
  generalize (2 : ℚ) ^ (971 : ℤ) = unit at hbound habove hunit
  linarith

end SelfDual.Decimal
