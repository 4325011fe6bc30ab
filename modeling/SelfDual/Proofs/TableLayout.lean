import Mathlib.Data.List.DropRight
import SelfDual.Proofs.NumberText
import SelfDual.Report.Table
/-!
**Where the cells of a line stand.**

A line is made of cells filled up with blanks to the width of a column, and the blanks at its end
are dropped.  If every cell is shorter than a column and begins and ends with something visible,
then dropping them takes nothing from a cell: each one stands at the start of its column, between
blanks.  Cells that hold no blank are found again by splitting the line at blanks.

Main definitions:

* `Text.words` — the pieces of a text between blanks, for any notion of a blank;
* `Report.StandsAt` — a text stands in a line from a column on, between blanks;
* `Report.FitsColumn`, `Report.IsToken` — texts that can stand in a column, and those without
  blanks.

Main results:

* `Report.fitsColumn_of_mem_titles`, `Report.isToken_padZeros` — the titles and visible texts fit;
* `Report.toList_line_cons` — a line is its first cell, filled up, and the line of the others;
* `Report.standsAt_line` — **every cell stands at the start of its column**;
* `Report.words_line` — **splitting a line at blanks gives its cells**.
-/

set_option autoImplicit false

namespace SelfDual

/-! ### Words -/

namespace Text

/-- What counts as a blank: the blank itself, perhaps others, but nothing visible. -/
structure SplitsAtBlanks (blank : Char → Bool) : Prop where
  space : blank ' ' = true
  visible : ∀ c, IsVisible c → blank c = false

/-- The white space of Unicode counts as blank. -/
theorem splitsAtBlanks_isBlank : SplitsAtBlanks isBlank where
  space := by decide
  visible _ := isBlank_of_isVisible

/-- The pieces of a text between blanks. -/
def words (blank : Char → Bool) (cs : List Char) : List String :=
  ((cs.splitOnP blank).filter (!·.isEmpty)).map String.ofList

variable {blank : Char → Bool}

/-- Blanks in front are passed over. -/
theorem words_blank_cons {c : Char} (hc : blank c = true) (cs : List Char) :
    words blank (c :: cs) = words blank cs := by
  have hsplit : (c :: cs).splitOnP blank = [] :: cs.splitOnP blank :=
    List.splitOnP_append_cons_of_forall_mem (List.forall_mem_nil _) c hc cs
  rw [words, hsplit]
  rfl

theorem words_replicate_append {c : Char} (hc : blank c = true) (k : ℕ) (cs : List Char) :
    words blank (List.replicate k c ++ cs) = words blank cs := by
  induction k with
  | zero => rfl
  | succ k ih => rw [List.replicate_succ, List.cons_append, words_blank_cons hc, ih]

/-- A text without blanks is one word. -/
theorem words_of_visible {s : String} (hs : ∀ c ∈ s.toList, blank c = false) (hne : s ≠ "") :
    words blank s.toList = [s] := by
  have hempty : s.toList ≠ [] := mt String.toList_eq_nil_iff.1 hne
  rw [words, List.splitOnP_eq_singleton hs]
  simp [hempty]

/-- A text without blanks in front of a blank is the first word. -/
theorem words_append_blank {s : String} {c : Char} (hs : ∀ c ∈ s.toList, blank c = false)
    (hne : s ≠ "") (hc : blank c = true) (cs : List Char) :
    words blank (s.toList ++ c :: cs) = s :: words blank cs := by
  have hempty : s.toList ≠ [] := mt String.toList_eq_nil_iff.1 hne
  rw [words, List.splitOnP_append_cons_of_forall_mem hs _ hc]
  simp [hempty, words]

end Text

namespace Report

/-! ### Texts that fit a column -/

/-- A text that can stand in a column: shorter than it, with something visible at both ends. -/
structure FitsColumn (cell : String) : Prop where
  short : cell.length < columnWidth
  starts : ∃ c ∈ cell.toList.head?, c ≠ ' '
  ends : ∃ c ∈ cell.toList.getLast?, c ≠ ' '

/-- A text that can stand in a column and holds no blank. -/
structure IsToken (cell : String) : Prop where
  short : cell.length < columnWidth
  visible : ∀ c ∈ cell.toList, Text.IsVisible c
  nonempty : cell ≠ ""

theorem ne_space_of_isVisible {c : Char} (h : Text.IsVisible c) : c ≠ ' ' := by
  rintro rfl
  exact absurd h (by decide)

theorem IsToken.fitsColumn {cell : String} (h : IsToken cell) : FitsColumn cell := by
  have hempty : cell.toList ≠ [] := mt String.toList_eq_nil_iff.1 h.nonempty
  refine ⟨h.short, ⟨_, List.head?_eq_some_head hempty, ?_⟩,
    ⟨_, List.getLast?_eq_some_getLast hempty, ?_⟩⟩
  · exact ne_space_of_isVisible (h.visible _ (List.head_mem hempty))
  · exact ne_space_of_isVisible (h.visible _ (List.getLast_mem hempty))

/-! ### The texts of a table -/

/-- The titles fit their columns. -/
theorem fitsColumn_of_mem_titles : ∀ title ∈ titles, FitsColumn title := by
  have hshort : ∀ n ∈ titles.map String.length, n < columnWidth := by
    change ∀ n ∈ [18, 16, 11, 4, 14, 9], n < 20
    decide
  have hstarts : ∀ title ∈ titles, ∃ c ∈ title.toList.head?, c ≠ ' ' := by simp [titles]
  have hends : ∀ title ∈ titles, ∃ c ∈ title.toList.getLast?, c ≠ ' ' := by simp [titles]
  exact fun title h => ⟨hshort _ (List.mem_map_of_mem h), hstarts title h, hends title h⟩

theorem isToken_dash : IsToken "-" where
  short := Nat.lt_of_le_of_lt (Nat.le_of_eq rfl : "-".length ≤ 1) (by decide)
  visible := by simp [Text.IsVisible]
  nonempty := by decide

/-- A sign and a visible text that are not too long are one word, filled up with zeros or not. -/
theorem isToken_padZeros (negative : Bool) {text : String} (hlength : text.length + 1 < columnWidth)
    (hvisible : ∀ c ∈ text.toList, Text.IsVisible c) :
    IsToken (Decimal.padZeros cellWidth (Decimal.signText negative, text)) := by
  have hpadded := Decimal.length_padZeros cellWidth (Decimal.signText negative) text
  have hsign : (Decimal.signText negative).length ≤ 1 := by
    cases negative
    · exact Nat.zero_le 1
    · exact Nat.le_of_eq rfl
  have hwidth : cellWidth = 11 := rfl
  have hcolumn : columnWidth = 20 := rfl
  refine ⟨by omega, ?_, ?_⟩
  · obtain ⟨k, hk⟩ := Decimal.exists_toList_padZeros cellWidth (Decimal.signText negative) text
    rw [hk, List.forall_mem_append, List.forall_mem_append]
    refine ⟨Decimal.isVisible_signText negative, fun c hc => ?_, hvisible⟩
    rw [List.eq_of_mem_replicate hc]
    decide
  · intro hempty
    rw [hempty, String.length_empty] at hpadded
    omega

/-- The words for an infinity and a NaN fit. -/
theorem isToken_infinity (negative : Bool) :
    IsToken (Decimal.padZeros cellWidth (Decimal.signText negative, "INF")) := by
  refine isToken_padZeros negative (Nat.lt_of_le_of_lt (Nat.le_of_eq rfl : _ ≤ 4) (by decide)) ?_
  simp [Text.IsVisible]

theorem isToken_nan : IsToken (Decimal.padZeros cellWidth ("", "NAN")) := by
  refine isToken_padZeros false (Nat.lt_of_le_of_lt (Nat.le_of_eq rfl : _ ≤ 4) (by decide)) ?_
  simp [Text.IsVisible]

/-! ### Lines -/

/-- A text that fits is filled up with at least one blank. -/
theorem FitsColumn.exists_fill {cell : String} (h : FitsColumn cell) :
    ∃ k, fill cell = cell.toList ++ ' ' :: List.replicate k ' ' := by
  obtain ⟨k, hk⟩ := Nat.exists_eq_add_of_lt h.short
  refine ⟨k, ?_⟩
  have hcount : columnWidth - cell.length = k + 1 := by omega
  rw [fill, hcount, List.replicate_succ]

theorem FitsColumn.length_fill {cell : String} (h : FitsColumn cell) :
    (fill cell).length = columnWidth := by
  have hshort := h.short
  rw [fill, List.length_append, String.length_toList, List.length_replicate]
  omega

/-- Only the blanks at the end of a line are missing. -/
theorem toList_line (cells : List String) :
    (line cells).toList = (cells.flatMap fill).rdropWhile (· = ' ') :=
  String.toList_ofList

/-- A line of one cell is that cell. -/
theorem toList_line_singleton {cell : String} (h : FitsColumn cell) :
    (line [cell]).toList = cell.toList := by
  have hblanks : ∀ c ∈ (List.replicate (columnWidth - cell.length) ' ').reverse,
      decide (c = ' ') = true := by
    intro c hc
    rw [List.reverse_replicate] at hc
    rw [List.eq_of_mem_replicate hc]
    decide
  have hkept : cell.toList.rdropWhile (· = ' ') = cell.toList := by
    rw [List.rdropWhile_eq_self_iff]
    intro hne
    obtain ⟨c, hc, hvisible⟩ := h.ends
    rw [List.getLast?_eq_some_getLast hne, Option.mem_some_iff] at hc
    simpa [hc] using hvisible
  rw [toList_line, List.flatMap_singleton, fill, List.rdropWhile, List.reverse_append,
    List.dropWhile_append_of_pos hblanks]
  exact hkept

/-- **A line is its first cell, filled up, and the line of the others.** -/
theorem toList_line_cons (cell : String) {cells : List String} (hne : cells ≠ [])
    (h : ∀ c ∈ cells, FitsColumn c) :
    (line (cell :: cells)).toList = fill cell ++ (line cells).toList := by
  have hkept : ¬((cells.flatMap fill).reverse.dropWhile (· = ' ')).isEmpty = true := by
    obtain ⟨next, rest, rfl⟩ := List.exists_cons_of_ne_nil hne
    have hfits : FitsColumn next := h next List.mem_cons_self
    obtain ⟨c, hc, hvisible⟩ := hfits.starts
    have hmem : c ∈ ((next :: rest).flatMap fill).reverse := by
      rw [List.mem_reverse, List.flatMap_cons, fill, List.append_assoc]
      exact List.mem_append_left _ (List.mem_of_head? hc)
    rw [List.isEmpty_iff, List.dropWhile_eq_nil_iff]
    exact fun hblank => hvisible (by simpa using hblank c hmem)
  rw [toList_line, toList_line, List.flatMap_cons, List.rdropWhile, List.reverse_append,
    List.dropWhile_append, if_neg hkept, List.reverse_append, List.reverse_reverse]
  rfl

/-! ### Columns -/

/-- A text that begins with something visible stands in a line from a column on, between blanks or
the ends of the line. -/
structure StandsAt (line text : String) (column : ℕ) : Prop where
  starts : ∃ c ∈ text.toList.head?, c ≠ ' '
  split : ∃ front back, line.toList = front ++ (text.toList ++ back) ∧ front.length = column ∧
    (∀ c ∈ front.getLast?, c = ' ') ∧ ∀ c ∈ back.head?, c = ' '

/-- A filled cell ends with a blank. -/
theorem FitsColumn.getLast?_fill {cell : String} (h : FitsColumn cell) :
    (fill cell).getLast? = some ' ' := by
  obtain ⟨k, hk⟩ := h.exists_fill
  rw [hk, ← List.replicate_succ, List.getLast?_append_of_ne_nil _ (by simp),
    List.getLast?_replicate, if_neg k.succ_ne_zero]

/-- **Every cell stands at the start of its column.** -/
theorem standsAt_line {cells : List String} (h : ∀ cell ∈ cells, FitsColumn cell)
    (j : Fin cells.length) : StandsAt (line cells) (cells.get j) (columnWidth * j) := by
  induction cells with
  | nil => exact j.elim0
  | cons cell cells ih =>
    obtain ⟨hcell, hcells⟩ := List.forall_mem_cons.1 h
    cases j using Fin.cases with
    | zero =>
      refine ⟨hcell.starts, [], ?_⟩
      -- the last cell has no blanks behind it
      by_cases hempty : cells = []
      · subst hempty
        exact ⟨[], by rw [toList_line_singleton hcell]; simp, rfl, by simp, by simp⟩
      · obtain ⟨k, hk⟩ := hcell.exists_fill
        refine ⟨' ' :: List.replicate k ' ' ++ (line cells).toList, ?_, rfl, by simp, by simp⟩
        rw [toList_line_cons cell hempty hcells, hk, List.append_assoc]
        rfl
    | succ j =>
      obtain ⟨hstarts, front, back, hsplit, hlength, hfront, hback⟩ := ih hcells j
      have hne : cells ≠ [] := List.ne_nil_of_length_pos j.pos
      refine ⟨hstarts, fill cell ++ front, back, ?_, ?_, ?_, hback⟩
      · rw [toList_line_cons cell hne hcells, hsplit, List.append_assoc]
        rfl
      · rw [List.length_append, hcell.length_fill, hlength, Fin.val_succ, Nat.mul_succ,
          Nat.add_comm]
      · cases front with
        | nil =>
          rw [List.append_nil, hcell.getLast?_fill]
          simp
        | cons c front =>
          rw [List.getLast?_append_of_ne_nil _ (List.cons_ne_nil c front)]
          exact hfront

/-- **Splitting a line at blanks gives its cells**, whatever else counts as a blank. -/
theorem words_line {blank : Char → Bool} (hblank : Text.SplitsAtBlanks blank) {cells : List String}
    (h : ∀ cell ∈ cells, IsToken cell) : Text.words blank (line cells).toList = cells := by
  induction cells with
  | nil => rfl
  | cons cell cells ih =>
    obtain ⟨hcell, hcells⟩ := List.forall_mem_cons.1 h
    have hvisible : ∀ c ∈ cell.toList, blank c = false := fun c hc =>
      hblank.visible c (hcell.visible c hc)
    by_cases hempty : cells = []
    · subst hempty
      rw [toList_line_singleton hcell.fitsColumn, Text.words_of_visible hvisible hcell.nonempty]
    · obtain ⟨k, hk⟩ := hcell.fitsColumn.exists_fill
      rw [toList_line_cons cell hempty fun c hc => (hcells c hc).fitsColumn, hk, List.append_assoc,
        List.cons_append, Text.words_append_blank hvisible hcell.nonempty hblank.space,
        Text.words_replicate_append hblank.space, ih hcells]

end Report

end SelfDual
