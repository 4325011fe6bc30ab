import SelfDual.Decimal.Reader
import SelfDual.Decimal.Scientific
import SelfDual.Proofs.Rounding
/-!
**Numbers written and read.**

A number in scientific notation is a sign, digits, a point, more digits, the letter of the exponent,
its sign and its digits.  This module says so without regard to how such a text is written, and
shows that the texts that are written have this form, zeros in front included, and that reading a
text of this form gives the double that is nearest to what it says.

Main definitions:

* `Text.IsVisible` — the characters of ASCII that leave a mark;
* `Decimal.SpellsNat` — digits that spell a natural number;
* `Decimal.IsScientific` — the characters of a number in scientific notation.

Main results:

* `Decimal.SpellsNat.readDigits_append` — digits are read up to the first other character;
* `Decimal.isScientific_padZeros` — **what is written is scientific notation**;
* `Decimal.length_scientific` — the length of such a text;
* `Decimal.IsScientific.readFloat?_eq` — **what scientific notation is read as**;
* `Decimal.ofParts_eq_nearest` — what is read is the nearest double.
-/

set_option autoImplicit false

namespace SelfDual

/-! ### Visible characters -/

namespace Text

/-- The characters of ASCII that leave a mark. -/
def IsVisible (c : Char) : Prop := 0x21 ≤ c.toNat ∧ c.toNat ≤ 0x7e

instance instDecidableIsVisible (c : Char) : Decidable (IsVisible c) :=
  inferInstanceAs (Decidable (_ ∧ _))

theorem isVisible_of_isDigit {c : Char} (h : c.isDigit = true) : IsVisible c := by
  obtain ⟨hlow, hhigh⟩ := Char.isDigit_iff_toNat.1 h
  exact ⟨Nat.le_trans (by decide) hlow, Nat.le_trans hhigh (by decide)⟩

/-- What leaves a mark is not blank. -/
theorem isBlank_of_isVisible {c : Char} (h : IsVisible c) : isBlank c = false := by
  obtain ⟨hlow, hhigh⟩ := h
  simp only [isBlank, Bool.or_eq_false_iff, Bool.and_eq_false_iff, decide_eq_false_iff_not,
    beq_eq_false_iff_ne]
  omega

/-- Nothing is trimmed from a text without blanks. -/
theorem trimBlanks_of_isVisible {cs : List Char} (h : ∀ c ∈ cs, IsVisible c) :
    trimBlanks cs = cs := by
  have hkeep (cs : List Char) (h : ∀ c ∈ cs, IsVisible c) : cs.dropWhile isBlank = cs := by
    cases cs with
    | nil => rfl
    | cons c cs =>
      exact List.dropWhile_cons_of_neg (by simp [isBlank_of_isVisible (h c List.mem_cons_self)])
  rw [trimBlanks, hkeep cs h, hkeep cs.reverse (by simpa using h), List.reverse_reverse]

/-- The digits of ASCII have their values. -/
theorem digitValue?_of_isDigit {c : Char} (h : c.isDigit = true) :
    digitValue? c = some (c.toNat - '0'.toNat) := by
  obtain ⟨hlow, hhigh⟩ := Char.isDigit_iff_toNat.1 h
  have hfirst : zeroDigits.find? (fun start => start ≤ c.toNat && c.toNat ≤ start + 9) =
      some 0x30 :=
    List.find?_cons_of_pos (by simpa using ⟨hlow, hhigh⟩)
  rw [digitValue?, hfirst]
  rfl

end Text

namespace Decimal

/-! ### Digits -/

/-- The characters are digits that spell the number. -/
structure SpellsNat (cs : List Char) (n : ℕ) : Prop where
  digits : ∀ c ∈ cs, c.isDigit = true
  value : Nat.ofDigitChars 10 cs 0 = n
  nonempty : cs ≠ []

/-- A number is spelled by its digits. -/
theorem spellsNat_repr (n : ℕ) : SpellsNat n.repr.toList n where
  digits c hc := by
    rw [Nat.toList_repr] at hc
    exact Nat.isDigit_of_mem_toDigits (by decide) (by decide) hc
  value := by rw [Nat.toList_repr, Nat.ofDigitChars_ten_toDigits]
  nonempty := by
    rw [Nat.toList_repr]
    exact Nat.toDigits_ne_nil

/-- Zeros in front change nothing. -/
theorem SpellsNat.zeros_append {cs : List Char} {n : ℕ} (h : SpellsNat cs n) (k : ℕ) :
    SpellsNat (List.replicate k '0' ++ cs) n where
  digits c hc := by
    rcases List.mem_append.1 hc with hzero | hc
    · rw [List.eq_of_mem_replicate hzero]
      decide
    · exact h.digits c hc
  value := by
    rw [Nat.ofDigitChars_append, Nat.ofDigitChars_replicate_zero, Nat.mul_zero, h.value]
  nonempty := by simp [h.nonempty]

theorem spellsNat_digitsText (width n : ℕ) : SpellsNat (digitsText width n).toList n := by
  rw [digitsText, String.toList_append, String.toList_ofList]
  exact (spellsNat_repr n).zeros_append _

theorem length_repr (n : ℕ) : n.repr.length = digitCount n := by
  rw [← String.length_toList, Nat.toList_repr, digitCount_eq_length]

/-- Digits are filled up to the width. -/
theorem length_digitsText (width n : ℕ) :
    (digitsText width n).length = max width (digitCount n) := by
  rw [digitsText, String.length_append, String.length_ofList, List.length_replicate, length_repr]
  omega

/-! ### Reading digits -/

/-- Digits are read one after the other. -/
theorem readDigits_append {cs : List Char} (h : ∀ c ∈ cs, c.isDigit = true) (value count : ℕ)
    (rest : List Char) :
    readDigits value count (cs ++ rest) =
      readDigits (Nat.ofDigitChars 10 cs value) (count + cs.length) rest := by
  induction cs generalizing value count with
  | nil => rfl
  | cons c cs ih =>
    obtain ⟨hc, hcs⟩ := List.forall_mem_cons.1 h
    rw [List.cons_append, readDigits.eq_def]
    dsimp only
    rw [Text.digitValue?_of_isDigit hc]
    dsimp only
    rw [ih hcs, Nat.ofDigitChars_cons, List.length_cons, Nat.add_right_comm, Nat.add_assoc]

/-- What comes after digits without belonging to them: nothing, or another character. -/
def EndsDigits : List Char → Prop
  | [] => True
  | c :: _ => Text.digitValue? c = none ∧ c ≠ '_'

/-- Reading stops at what is no digit. -/
theorem readDigits_of_endsDigits {rest : List Char} (h : EndsDigits rest) (value count : ℕ) :
    readDigits value count rest = (value, count, rest) := by
  cases rest with
  | nil => rfl
  | cons c cs =>
    obtain ⟨hdigit, hunderscore⟩ := h
    cases cs with
    | nil => simp [readDigits, hdigit]
    | cons c' cs' => simp [readDigits, hdigit, hunderscore]

/-- **Digits are read up to the first other character.** -/
theorem SpellsNat.readDigits_append {cs rest : List Char} {n : ℕ} (h : SpellsNat cs n)
    (hrest : EndsDigits rest) : readDigits 0 0 (cs ++ rest) = (n, cs.length, rest) := by
  rw [Decimal.readDigits_append h.digits, h.value, Nat.zero_add, readDigits_of_endsDigits hrest]

/-! ### Scientific notation -/

/-- The sign that stands before the digits of an exponent. -/
def exponentSign (e : ℤ) : Char := if e < 0 then '-' else '+'

/-- The characters are scientific notation of `± coefficient · 10 ^ (exponent - places)`, with so
many places and a capital letter before the exponent. -/
def IsScientific (negative : Bool) (places : ℕ) (s : Significant) (cs : List Char) : Prop :=
  ∃ whole fraction power,
    cs = (signText negative).toList ++
      (whole ++ '.' :: (fraction ++ 'E' :: exponentSign s.exponent :: power)) ∧
    SpellsNat whole (s.coefficient / 10 ^ places) ∧
    SpellsNat fraction (s.coefficient % 10 ^ places) ∧ fraction.length = places ∧
    SpellsNat power s.exponent.natAbs

theorem toList_exponentText (e : ℤ) : (exponentText .capital e).toList =
    'E' :: exponentSign e :: (digitsText 2 e.natAbs).toList := by
  rw [exponentText, String.toList_append, String.toList_append, exponentSign]
  split <;> rfl

theorem toList_withPoint {places : ℕ} (hplaces : places ≠ 0) (n : ℕ) :
    (withPoint places n).toList =
      (n / 10 ^ places).repr.toList ++ '.' :: (digitsText places (n % 10 ^ places)).toList := by
  rw [withPoint, if_neg hplaces, String.toList_append, String.toList_append, List.append_assoc]
  rfl

/-- Zeros stand between the sign and the digits. -/
theorem exists_toList_padZeros (width : ℕ) (sign text : String) :
    ∃ k, (padZeros width (sign, text)).toList =
      sign.toList ++ (List.replicate k '0' ++ text.toList) := by
  refine ⟨width - sign.length - text.length, ?_⟩
  rw [padZeros, String.toList_append, String.toList_append, String.toList_ofList, List.append_assoc]

theorem length_padZeros (width : ℕ) (sign text : String) :
    (padZeros width (sign, text)).length = max width (sign.length + text.length) := by
  rw [padZeros, String.length_append, String.length_append, String.length_ofList,
    List.length_replicate]
  omega

/-- **What is written is scientific notation**, zeros in front included. -/
theorem isScientific_padZeros {places : ℕ} (hplaces : 0 < places) (width : ℕ) (negative : Bool)
    (s : Significant) :
    IsScientific negative places s (padZeros width (signText negative,
      withPoint places s.coefficient ++ exponentText .capital s.exponent)).toList := by
  obtain ⟨k, hk⟩ := exists_toList_padZeros width (signText negative)
    (withPoint places s.coefficient ++ exponentText .capital s.exponent)
  rw [String.toList_append, toList_withPoint hplaces.ne', toList_exponentText] at hk
  refine ⟨List.replicate k '0' ++ (s.coefficient / 10 ^ places).repr.toList,
    (digitsText places (s.coefficient % 10 ^ places)).toList,
    (digitsText 2 s.exponent.natAbs).toList, ?_, (spellsNat_repr _).zeros_append k,
    spellsNat_digitsText _ _, ?_, spellsNat_digitsText _ _⟩
  · rw [hk, List.append_assoc, List.append_assoc, List.cons_append]
  · rw [String.length_toList, length_digitsText, max_eq_left]
    exact (digitCount_le_iff hplaces).2 (Nat.mod_lt _ (Nat.pow_pos (by decide)))

/-- The length of a number with one digit before the point. -/
theorem length_scientific {places : ℕ} (hplaces : 0 < places) {c : ℕ} (hc : c < 10 ^ (places + 1))
    (e : ℤ) : (withPoint places c ++ exponentText .capital e).length =
      places + 4 + max 2 (digitCount e.natAbs) := by
  have hpow : 0 < 10 ^ places := Nat.pow_pos (by decide)
  have hwhole : digitCount (c / 10 ^ places) = 1 :=
    digitCount_of_lt ((Nat.div_lt_iff_lt_mul hpow).2 (by rwa [Nat.mul_comm, ← Nat.pow_succ]))
  have hfraction : digitCount (c % 10 ^ places) ≤ places :=
    (digitCount_le_iff hplaces).2 (Nat.mod_lt _ hpow)
  rw [← String.length_toList, String.toList_append, toList_withPoint hplaces.ne',
    toList_exponentText]
  simp only [List.length_append, List.length_cons, String.length_toList, length_repr,
    length_digitsText, hwhole, max_eq_left hfraction]
  omega

/-! ### Reading scientific notation -/

theorem isVisible_exponentSign (e : ℤ) : Text.IsVisible (exponentSign e) := by
  rw [exponentSign]
  split <;> decide

theorem isVisible_signText (negative : Bool) :
    ∀ c ∈ (signText negative).toList, Text.IsVisible c := by
  cases negative with
  | false => exact List.forall_mem_nil _
  | true => exact List.forall_mem_singleton.2 (by decide)

/-- Scientific notation holds no blank. -/
theorem IsScientific.isVisible {negative : Bool} {places : ℕ} {s : Significant} {cs : List Char}
    (h : IsScientific negative places s cs) : ∀ c ∈ cs, Text.IsVisible c := by
  obtain ⟨whole, fraction, power, rfl, hwhole, hfraction, -, hpower⟩ := h
  have hdigits {ds : List Char} {n : ℕ} (hds : SpellsNat ds n) : ∀ c ∈ ds, Text.IsVisible c :=
    fun c hc => Text.isVisible_of_isDigit (hds.digits c hc)
  simp only [List.forall_mem_append, List.forall_mem_cons]
  exact ⟨isVisible_signText negative, hdigits hwhole, by decide, hdigits hfraction, by decide,
    isVisible_exponentSign _, hdigits hpower⟩

/-- A number is written without blanks. -/
theorem isVisible_scientific {places : ℕ} (hplaces : 0 < places) (s : Significant) :
    ∀ c ∈ (withPoint places s.coefficient ++ exponentText .capital s.exponent).toList,
      Text.IsVisible c := by
  intro c hc
  have hvisible := (isScientific_padZeros hplaces 0 false s).isVisible
  obtain ⟨k, hk⟩ := exists_toList_padZeros 0 (signText false)
    (withPoint places s.coefficient ++ exponentText .capital s.exponent)
  rw [hk] at hvisible
  exact hvisible c (List.mem_append_right _ (List.mem_append_right _ hc))

/-- The sign is read off in front of a digit. -/
theorem readSign_signText (negative : Bool) {c : Char} (hc : c.isDigit = true) (cs : List Char) :
    readSign ((signText negative).toList ++ c :: cs) = (negative, c :: cs) := by
  cases negative with
  | true => rfl
  | false =>
    change readSign (c :: cs) = _
    unfold readSign
    split
    · next heq =>
      cases heq
      cases hc
    · next heq =>
      cases heq
      cases hc
    · rfl

theorem toLower_of_isDigit {c : Char} (h : c.isDigit = true) : c.toLower = c := by
  obtain ⟨-, hhigh⟩ := Char.isDigit_iff_toNat.1 h
  have hnot : ¬('A'.val ≤ c.val ∧ c.val ≤ 'Z'.val) := fun hletter =>
    absurd (Nat.le_trans (UInt32.le_iff_toNat_le.1 hletter.1) hhigh) (by decide)
  exact dif_neg hnot

/-- What begins with a digit is no word that begins with a letter, whatever the case. -/
theorem ofList_toLower_ne {c d : Char} {cs ds : List Char} {word : String} (hc : c.isDigit = true)
    (hword : word.toList = d :: ds) (hd : d.isDigit = false) :
    String.ofList ((c :: cs).map Char.toLower) ≠ word := by
  rintro rfl
  rw [String.toList_ofList, List.map_cons, toLower_of_isDigit hc] at hword
  rw [(List.cons.inj hword).1, hd] at hc
  cases hc

/-- The exponent is read. -/
theorem readExponent?_power {e : ℤ} {power : List Char} (h : SpellsNat power e.natAbs) :
    readExponent? ('E' :: exponentSign e :: power) = some e := by
  have hread : readDigits 0 0 (power ++ []) = _ := h.readDigits_append trivial
  rw [List.append_nil] at hread
  obtain ⟨k, hk⟩ := Nat.exists_eq_succ_of_ne_zero (List.length_pos_iff.2 h.nonempty).ne'
  rw [hk] at hread
  rcases lt_or_ge e 0 with hneg | hnonneg
  · have habs : -(e.natAbs : ℤ) = e := by omega
    generalize e.natAbs = n at hread habs
    simp [exponentSign, hneg, readExponent?, readSign, hread, habs]
  · have habs : (e.natAbs : ℤ) = e := by omega
    generalize e.natAbs = n at hread habs
    simp [exponentSign, hnonneg.not_gt, readExponent?, readSign, hread, habs]

/-- Digits with a point among them and an exponent are read as the number that they say. -/
theorem readMagnitude?_of_digits (negative : Bool) {whole fraction rest : List Char} {w f : ℕ}
    {e : ℤ} (hwhole : SpellsNat whole w) (hfraction : SpellsNat fraction f)
    (hends : EndsDigits rest) (hexponent : readExponent? rest = some e) :
    readMagnitude? negative (whole ++ '.' :: (fraction ++ rest)) =
      some (ofParts negative (w * 10 ^ fraction.length + f) (e - fraction.length)) := by
  obtain ⟨d, ds, rfl⟩ := List.exists_cons_of_ne_nil hwhole.nonempty
  have hd : d.isDigit = true := hwhole.digits d List.mem_cons_self
  have hpoint : EndsDigits ('.' :: (fraction ++ rest)) := ⟨by decide, by decide⟩
  have hreadWhole := hwhole.readDigits_append hpoint
  have hreadFraction := hfraction.readDigits_append hends
  have hinf : String.ofList ((d :: (ds ++ '.' :: (fraction ++ rest))).map Char.toLower) ≠ "inf" :=
    ofList_toLower_ne hd rfl (by decide)
  have hinfinity : String.ofList ((d :: (ds ++ '.' :: (fraction ++ rest))).map Char.toLower) ≠
      "infinity" := ofList_toLower_ne hd rfl (by decide)
  have hnan : String.ofList ((d :: (ds ++ '.' :: (fraction ++ rest))).map Char.toLower) ≠ "nan" :=
    ofList_toLower_ne hd rfl (by decide)
  have hcount : (d :: ds).length + fraction.length ≠ 0 := by simp
  rw [List.cons_append] at hreadWhole ⊢
  simp only [readMagnitude?, hinf, hinfinity, hnan, hreadWhole, hreadFraction, hexponent, hcount,
    decide_false, Bool.or_self, Bool.false_eq_true, if_false, Option.map_some]
  rfl

/-- **Scientific notation is read as the number that it says.** -/
theorem IsScientific.readFloat?_eq {negative : Bool} {places : ℕ} {s : Significant} {cs : List Char}
    (h : IsScientific negative places s cs) :
    readFloat? (String.ofList cs) =
      some (ofParts negative s.coefficient (s.exponent - places)) := by
  have hvisible := h.isVisible
  obtain ⟨whole, fraction, power, rfl, hwhole, hfraction, rfl, hpower⟩ := h
  have hends : EndsDigits ('E' :: exponentSign s.exponent :: power) := ⟨by decide, by decide⟩
  have hread := readMagnitude?_of_digits negative hwhole hfraction hends
    (readExponent?_power hpower)
  rw [Nat.div_add_mod'] at hread
  obtain ⟨d, ds, rfl⟩ := List.exists_cons_of_ne_nil hwhole.nonempty
  have hd : d.isDigit = true := hwhole.digits d List.mem_cons_self
  rw [readFloat?, String.toList_ofList, Text.trimBlanks_of_isVisible hvisible, List.cons_append,
    readSign_signText negative hd]
  exact hread

/-- The double of a decimal is the nearest one; only exponents far outside the range of the doubles
are decided without computing it. -/
theorem ofParts_eq_nearest (negative : Bool) {mantissa : ℕ} {exponent : ℤ}
    (hlow : -330 ≤ exponent + digitCount mantissa) (hhigh : exponent + digitCount mantissa ≤ 310) :
    ofParts negative mantissa exponent = nearest negative (.ofScaled mantissa 10 exponent) := by
  rw [ofParts]
  by_cases hzero : mantissa = 0
  · have hnum : (Ratio.ofScaled mantissa 10 exponent).num = 0 := by
      rw [Ratio.ofScaled, hzero]
      split <;> simp
    have hbits : nearestBits ⟨0, 1⟩ = nearestBits (.ofScaled mantissa 10 exponent) := by
      rw [nearestBits, nearestBits, if_pos rfl, if_pos hnum]
    rw [if_pos (.inl hzero), nearest, nearest, hbits]
  · have hsmall : ¬(mantissa = 0 ∨ exponent + digitCount mantissa < -330) := by omega
    rw [if_neg hsmall, if_neg (by omega)]

end Decimal

end SelfDual
