import SelfDual.Proofs.Doubles
import SelfDual.Proofs.TableLayout
/-!
**What a row of the table shows.**

A double has six significant digits whose exponent has three digits at most, so that its text with
sign, point and exponent is shorter than a column.  Hence the cells of a row stand under their
titles, and splitting a row at blanks gives the six cells.  Each finite number among them is written
in scientific notation, and reading it gives the double that is nearest to its six digits.

Main definitions:

* `Report.ShowsRounded` — a text shows a double rounded to six significant digits;
* `Report.Shows` — a text shows a number, or a dash for none.

Main results:

* `Decimal.Significant.Rounds.bounds_of_double` — the six digits of a double, with their exponent,
  do not exceed the greatest double;
* `Report.isToken_cell` — **every double fits its column**;
* `Report.showsRounded_cell` — **a cell shows its number rounded to six digits**;
* `Report.row_layout` — **the row of an iteration**: cells under their titles, six words, the
  values.
-/

set_option autoImplicit false

namespace SelfDual

/-! ### Six digits of a double -/

namespace Decimal

/-- The least positive double exceeds the 324th negative power of ten. -/
theorem ten_zpow_le_two_zpow : (10 : ℚ) ^ (-324 : ℤ) ≤ (2 : ℚ) ^ (-1074 : ℤ) := by
  have hnat : 2 ^ 1074 ≤ 10 ^ 324 := by decide +kernel
  have hpow : (2 : ℚ) ^ 1074 ≤ (10 : ℚ) ^ 324 := by exact_mod_cast hnat
  have hten : (10 : ℚ) ^ (-324 : ℤ) = ((10 : ℚ) ^ 324)⁻¹ := zpow_neg_coe_of_pos 10 (by decide)
  have htwo : (2 : ℚ) ^ (-1074 : ℤ) = ((2 : ℚ) ^ 1074)⁻¹ := zpow_neg_coe_of_pos 2 (by decide)
  rw [hten, htwo]
  exact inv_anti₀ (pow_pos two_pos _) hpow

/-- The greatest double lies above the six digits 1.79769, nearer to them than to the next ones. -/
theorem greatest_bounds : 179769 * (10 : ℚ) ^ (303 : ℤ) ≤ (2 ^ 53 - 1) * (2 : ℚ) ^ (971 : ℤ) ∧
    2 * ((2 ^ 53 - 1) * (2 : ℚ) ^ (971 : ℤ)) < (2 * 179769 + 1) * (10 : ℚ) ^ (303 : ℤ) := by
  have hmantissa : ((2 ^ 53 - 1 : ℕ) : ℚ) = 2 ^ 53 - 1 := by norm_num
  have hlow : 179769 * 10 ^ 303 ≤ (2 ^ 53 - 1) * 2 ^ 971 := by decide +kernel
  have hhigh : 2 * ((2 ^ 53 - 1) * 2 ^ 971) < (2 * 179769 + 1) * 10 ^ 303 := by decide +kernel
  rw [← hmantissa]
  constructor
  · exact_mod_cast hlow
  · exact_mod_cast hhigh

/-- The bounds of a finite double that is not zero. -/
theorem Binary.value_bounds {x : Float} {negative : Bool} {m : ℕ} {e : ℤ}
    (h : ofFloat x = .finite negative m e) (hm : m ≠ 0) :
    (10 : ℚ) ^ (-324 : ℤ) ≤ m * (2 : ℚ) ^ e ∧
      m * (2 : ℚ) ^ e ≤ (2 ^ 53 - 1) * (2 : ℚ) ^ (971 : ℤ) := by
  obtain ⟨hmantissa, hlow, hhigh⟩ := bounds_of_finite h
  have hone : (1 : ℚ) ≤ m := by exact_mod_cast Nat.one_le_iff_ne_zero.2 hm
  have hmax : (m : ℚ) ≤ 2 ^ 53 - 1 := by
    have hle : ((m + 1 : ℕ) : ℚ) ≤ ((2 ^ 53 : ℕ) : ℚ) := Nat.cast_le.2 hmantissa
    push_cast at hle
    linarith
  constructor
  · calc (10 : ℚ) ^ (-324 : ℤ) ≤ (2 : ℚ) ^ (-1074 : ℤ) := ten_zpow_le_two_zpow
      _ ≤ (2 : ℚ) ^ e := zpow_le_zpow_right₀ one_le_two hlow
      _ ≤ m * (2 : ℚ) ^ e := le_mul_of_one_le_left (zpow_pos two_pos e).le hone
  · exact mul_le_mul hmax (zpow_le_zpow_right₀ one_le_two hhigh) (zpow_pos two_pos e).le
      (by norm_num)

/-- The six digits of a finite double do not exceed the greatest one, and their exponent has three
digits at most. -/
theorem Significant.Rounds.bounds_of_double {x : Float} {negative : Bool} {m : ℕ} {e : ℤ}
    {s : Significant} (h : s.Rounds 5 (m * (2 : ℚ) ^ e))
    (hx : Binary.ofFloat x = .finite negative m e) :
    s.value 5 ≤ (2 ^ 53 - 1) * (2 : ℚ) ^ (971 : ℤ) ∧ -324 ≤ s.exponent ∧ s.exponent ≤ 308 := by
  by_cases hm : m = 0
  · have hzero : s = ⟨0, 0⟩ := h.zero (by rw [hm, Nat.cast_zero, zero_mul])
    subst hzero
    refine ⟨?_, by decide, by decide⟩
    rw [Significant.value, Nat.cast_zero, zero_mul]
    exact mul_nonneg (by norm_num) (zpow_pos two_pos _).le
  · obtain ⟨hlow, hhigh⟩ := Binary.value_bounds hx hm
    obtain ⟨hbelow, habove⟩ := greatest_bounds
    have hpos : m * (2 : ℚ) ^ e ≠ 0 := ((zpow_pos (by norm_num) _).trans_le hlow).ne'
    -- no double reaches the middle above 1.79769, so none is rounded beyond the greatest one
    have hmiddle : 2 * (m * (2 : ℚ) ^ e) < (2 * (179769 : ℕ) + 1) * (10 : ℚ) ^ (303 : ℤ) :=
      (mul_le_mul_of_nonneg_left hhigh two_pos.le).trans_lt (by rwa [Nat.cast_ofNat])
    have hvalue := h.value_le_of_lt_middle (by decide) (by decide) hmiddle
    rw [Nat.cast_ofNat] at hvalue
    refine ⟨hvalue.trans hbelow, h.le_exponent hlow, ?_⟩
    have hlarge : 179769 * (10 : ℚ) ^ (303 : ℤ) < (10 : ℚ) ^ (6 : ℕ) * (10 : ℚ) ^ (303 : ℤ) :=
      mul_lt_mul_of_pos_right (by norm_num) (zpow_pos (by norm_num) _)
    have hlt : (10 : ℚ) ^ s.exponent < (10 : ℚ) ^ ((6 : ℕ) + 303 : ℤ) := by
      rw [zpow_add₀ (by norm_num), zpow_natCast]
      exact (h.decade hpos).1.trans_lt (hvalue.trans_lt hlarge)
    have hexponent := (zpow_lt_zpow_iff_right₀ (by norm_num)).1 hlt
    omega

end Decimal

/-! ### Cells -/

namespace Report

open Decimal

/-- The text shows the double rounded to six significant digits: it says these digits in scientific
notation, and reading it gives the double that is nearest to them. -/
def ShowsRounded (x : Float) (text : String) : Prop :=
  ∃ negative m e s, Binary.ofFloat x = .finite negative m e ∧
    s.Rounds 5 (m * (2 : ℚ) ^ e) ∧ IsScientific negative 5 s text.toList ∧
    ∃ y m' e', readFloat? text = some y ∧ Binary.ofFloat y = .finite negative m' e' ∧
      IsRounding 2 IsMagnitude (s.value 5) m' e'

/-- The cell of a finite double has its six digits. -/
theorem exists_cell_eq {x : Float} {negative : Bool} {m : ℕ} {e : ℤ}
    (hx : Binary.ofFloat x = .finite negative m e) :
    ∃ s : Significant, s.Rounds 5 (m * (2 : ℚ) ^ e) ∧
      cell x = padZeros cellWidth (signText negative,
        withPoint 5 s.coefficient ++ exponentText .capital s.exponent) := by
  refine ⟨significant 5 (.ofScaled m 2 e), ?_, ?_⟩
  · have hround := rounds_significant (by decide : 0 < 5) (Ratio.ofScaled_den_pos two_pos m e)
    rwa [Ratio.value_ofScaled, Nat.cast_ofNat] at hround
  · rw [cell, signed, hx]
    rfl

/-- **Every double fits its column** and is one word. -/
theorem isToken_cell (x : Float) : IsToken (cell x) := by
  cases hx : Binary.ofFloat x with
  | nan =>
    rw [cell, signed, hx]
    exact isToken_nan
  | infinite negative =>
    rw [cell, signed, hx]
    exact isToken_infinity negative
  | finite negative m e =>
    obtain ⟨s, hround, hcell⟩ := exists_cell_eq hx
    obtain ⟨-, hlow, hhigh⟩ := hround.bounds_of_double hx
    have hexponent : digitCount s.exponent.natAbs ≤ 3 :=
      (digitCount_le_iff (by decide)).2 (by omega)
    have hcolumn : columnWidth = 20 := rfl
    rw [hcell]
    refine isToken_padZeros negative ?_ ?_
    · rw [length_scientific (by decide) hround.rounding.mem]
      omega
    · exact isVisible_scientific (by decide) s

/-- **A cell shows its number rounded to six significant digits.** -/
theorem showsRounded_cell {x : Float} (hfinite : x.isFinite = true) : ShowsRounded x (cell x) := by
  obtain ⟨negative, m, e, hx⟩ := Binary.exists_finite_iff.2 hfinite
  obtain ⟨s, hround, hcell⟩ := exists_cell_eq hx
  obtain ⟨hvalue, hlow, hhigh⟩ := hround.bounds_of_double hx
  have hscientific : IsScientific negative 5 s (cell x).toList := by
    rw [hcell]
    exact isScientific_padZeros (by decide) cellWidth negative s
  have hcount : digitCount s.coefficient ≤ 6 :=
    (digitCount_le_iff (by decide)).2 hround.rounding.mem
  have hpos := digitCount_pos s.coefficient
  have hread := hscientific.readFloat?_eq
  rw [String.ofList_toList, ofParts_eq_nearest negative (by omega) (by omega)] at hread
  have hdecimal : (Ratio.ofScaled s.coefficient 10 (s.exponent - (5 : ℕ))).value = s.value 5 := by
    rw [Ratio.value_ofScaled, Nat.cast_ofNat, Significant.value]
  have hden : 0 < (Ratio.ofScaled s.coefficient 10 (s.exponent - (5 : ℕ))).den :=
    Ratio.ofScaled_den_pos (by decide) _ _
  obtain ⟨m', e', hnearest, hparts⟩ := nearest_of_le negative hden (hdecimal.trans_le hvalue)
  rw [hdecimal] at hnearest
  exact ⟨negative, m, e, s, hx, hround, hscientific, _, m', e', hread, hparts, hnearest⟩

/-! ### Rows -/

/-- A text shows a number rounded to six digits if it is finite, or a dash for none. -/
def Shows : Option Float → String → Prop
  | none, text => text = "-"
  | some x, text => x.isFinite = true → ShowsRounded x text

theorem shows_stepCell (alpha : Option Float) : Shows alpha (stepCell alpha) := by
  cases alpha with
  | none => rfl
  | some x => exact showsRounded_cell

theorem isToken_stepCell (alpha : Option Float) : IsToken (stepCell alpha) := by
  cases alpha with
  | none => exact isToken_dash
  | some x => exact isToken_cell x

theorem isToken_of_mem_cells {ind : Indicators Float} {alpha : Option Float} :
    ∀ text ∈ cells ind alpha, IsToken text := by
  simp only [cells, List.forall_mem_cons, isToken_cell, isToken_stepCell, true_and]
  exact List.forall_mem_nil _

/-- **The row of an iteration.**  For all indicators, whether zero, subnormal, negative, large,
infinite or NaN, and for every step or none: each of the six cells begins exactly at its column, a
multiple of twenty, where its title begins in the header, and ends before the next column, so that
there is a blank between any two cells.  Splitting the row at blanks, whatever else counts as a
blank, gives the six cells and nothing else.  In this order they show the primal and the dual
infeasibility, the duality gap, the step, the path parameter and the objective: a dash for no step,
and each finite number in scientific notation, rounded correctly to six significant digits, which is
read back as the double that is nearest to them. -/
theorem row_layout (ind : Indicators Float) (alpha : Option Float) :
    (∀ j : Fin 6,
      StandsAt (row ind alpha) ((cells ind alpha).get j) (20 * j) ∧
      StandsAt header (titles.get j) (20 * j) ∧
      ((cells ind alpha).get j).length < 20) ∧
    (∀ blank, Text.SplitsAtBlanks blank →
      Text.words blank (row ind alpha).toList = cells ind alpha) ∧
    List.Forall₂ Shows
      [some ind.rhoP, some ind.rhoD, some ind.rhoG, alpha, some ind.rhoMu, some ind.obj]
      (cells ind alpha) := by
  have htoken : ∀ text ∈ cells ind alpha, IsToken text := isToken_of_mem_cells
  refine ⟨fun j => ⟨?_, ?_, ?_⟩, fun blank hblank => words_line hblank htoken, ?_⟩
  · exact standsAt_line (fun text h => (htoken text h).fitsColumn) j
  · exact standsAt_line fitsColumn_of_mem_titles j
  · exact (htoken _ (List.get_mem (cells ind alpha) j)).short
  · exact .cons showsRounded_cell (.cons showsRounded_cell (.cons showsRounded_cell
      (.cons (shows_stepCell alpha) (.cons showsRounded_cell (.cons showsRounded_cell .nil)))))

/-- The row of a starting point whose indicators are all one. -/
theorem row_layout_of_ones :
    Text.words Text.isBlank (row ⟨1, 1, 1, 1, 1, 1⟩ none).toList =
        [cell 1, cell 1, cell 1, "-", cell 1, cell 1] ∧
      (1 : Float).isFinite = true ∧ ShowsRounded 1 (cell 1) := by
  obtain ⟨-, hwords, hshows⟩ := row_layout ⟨1, 1, 1, 1, 1, 1⟩ none
  have hfinite : (1 : Float).isFinite = true := by decide
  refine ⟨hwords Text.isBlank Text.splitsAtBlanks_isBlank, hfinite, ?_⟩
  cases hshows with
  | cons hfirst _ => exact hfirst hfinite

end Report

end SelfDual
