import Mathlib.Data.List.Forall2
import SelfDual.Tensor.Arithmetic
import SelfDual.Tensor.Nested
/-!
**What a nested list says.**

A nested list has a shape if all lists on one level have the same length, and then it spells the
entries of a tensor row after row.  This module says so by recursion on the shape, without regard to
how a list is read, and shows that reading a list finds the tensor that it spells.

The list form of a tensor forgets one thing: behind an axis without entries no further axis can be
seen.  So the lists determine their tensor only if all axes but the last one have entries.

Main definitions:

* `Value.SpellsEntries`, `Value.Spells` — a nested list spells entries, or a tensor;
* `Value.IsArray` — a nested list of finite numbers that has a shape;
* `Shape.visible` — the part of a shape that is seen in a nested list.

Main results:

* `Value.spellsEntries_iff` — a list spells some entries if its visible shape and its leaves do;
* `Value.isArray_iff` — the arrays are the lists that spell finite entries;
* `Tensor.ofValue_eq_ok_iff` — **reading finds what is spelled**: a list is read as a tensor exactly
  if it spells it and its shape is visible;
* `Value.spells_ofTensor` — **what is written for a tensor spells it**, for every shape.
-/

set_option autoImplicit false

namespace SelfDual

/-! ### Visible shapes -/

namespace Shape

/-- The part of a shape that is seen in a nested list: there is nothing behind an axis without
entries. -/
def visible : List Nat → List Nat
  | [] => []
  | 0 :: _ => [0]
  | (n + 1) :: shape => (n + 1) :: visible shape

theorem visible_of_pos {n : Nat} (h : 0 < n) (shape : List Nat) :
    visible (n :: shape) = n :: visible shape := by
  cases n with
  | zero => omega
  | succ n => rfl

/-- The shape of a vector is visible. -/
@[simp] theorem visible_vector (n : Nat) : visible [n] = [n] := by
  cases n <;> rfl

/-- The shape of a matrix that has rows is visible. -/
theorem visible_matrix {m : Nat} (h : 0 < m) (n : Nat) : visible [m, n] = [m, n] := by
  rw [visible_of_pos h, visible_vector]

end Shape

/-! ### Lists of results and of entries -/

/-- Computations in a row succeed exactly if each of them does. -/
theorem mapM_eq_ok_iff {ε α β : Type} {f : α → Except ε β} {as : List α} {bs : List β} :
    as.mapM f = .ok bs ↔ List.Forall₂ (fun a b => f a = .ok b) as bs := by
  induction as generalizing bs with
  | nil => simp [pure, Except.pure, eq_comm]
  | cons a as ih =>
    simp only [List.mapM_cons, bind_eq_ok_iff, List.forall₂_cons_left_iff, ih]
    constructor
    · rintro ⟨b, hb, bs', hbs, h⟩
      exact ⟨b, bs', hb, hbs, (Except.ok.inj h).symm⟩
    · rintro ⟨b, bs', hb, hbs, rfl⟩
      exact ⟨b, hb, bs', hbs, rfl⟩

/-- A tensor of doubles is finite if each of its entries is. -/
theorem Tensor.isFinite_iff {t : Tensor Float} :
    t.isFinite = true ↔ ∀ x ∈ t.toList, x.isFinite = true := by
  rw [Tensor.isFinite, Tensor.all, ← Array.all_toList, List.all_eq_true]
  rfl

/-! ### Shapes of nested lists -/

namespace Value

theorem commonAxes?_cons_cons (v w : Value) (items : List Value) :
    commonAxes? (v :: w :: items) = v.axes?.bind fun s =>
      (commonAxes? (w :: items)).bind fun t => if s = t then some s else none := by
  generalize hrest : w :: items = rest
  rw [commonAxes?.eq_def]
  subst hrest
  dsimp only
  cases v.axes? <;> cases commonAxes? (w :: items) <;> rfl

/-- All items of a list that has items have the shape that is common to them. -/
theorem commonAxes?_eq_some_iff {items : List Value} {shape : List Nat} (h : items ≠ []) :
    commonAxes? items = some shape ↔ ∀ item ∈ items, item.axes? = some shape := by
  induction items with
  | nil => exact absurd rfl h
  | cons v items ih =>
    cases items with
    | nil => cases hv : v.axes? <;> simp [commonAxes?, hv]
    | cons w items =>
      rw [List.forall_mem_cons, ← ih (List.cons_ne_nil w items), commonAxes?_cons_cons]
      simp only [Option.bind_eq_some_iff, Option.ite_none_right_eq_some, Option.some.injEq]
      constructor
      · rintro ⟨s, hs, t, ht, rfl, rfl⟩
        exact ⟨hs, ht⟩
      · rintro ⟨hv, hitems⟩
        exact ⟨shape, hv, shape, hitems, rfl, rfl⟩

/-- A list has the visible part of a shape exactly if its items have. -/
theorem axes?_list_eq_iff {items : List Value} {n : Nat} {shape : List Nat} :
    (list items).axes? = some (Shape.visible (n :: shape)) ↔
      items.length = n ∧ ∀ item ∈ items, item.axes? = some (Shape.visible shape) := by
  rw [axes?, Option.map_eq_some_iff]
  cases n with
  | zero =>
    constructor
    · rintro ⟨s, -, hs⟩
      obtain rfl : items = [] := List.length_eq_zero_iff.1 (List.cons.inj hs).1
      exact ⟨rfl, by simp⟩
    · rintro ⟨hlength, -⟩
      obtain rfl : items = [] := List.length_eq_zero_iff.1 hlength
      exact ⟨[], rfl, rfl⟩
  | succ n =>
    rw [Shape.visible_of_pos n.succ_pos]
    constructor
    · rintro ⟨s, hs, hcons⟩
      obtain ⟨hlength, rfl⟩ := List.cons.inj hcons
      have hne : items ≠ [] := List.ne_nil_of_length_eq_add_one hlength
      exact ⟨hlength, (commonAxes?_eq_some_iff hne).1 hs⟩
    · rintro ⟨hlength, hitems⟩
      have hne : items ≠ [] := List.ne_nil_of_length_eq_add_one hlength
      exact ⟨_, (commonAxes?_eq_some_iff hne).2 hitems, by rw [hlength]⟩

/-! ### Entries of nested lists -/

/-- The values are read as the entries, one by one. -/
def Reads (vs : List Value) (entries : List Float) : Prop :=
  List.Forall₂ (fun v x => v.toEntry = .ok x) vs entries

/-- Values in a row are read in two parts. -/
theorem reads_append_iff {us vs : List Value} {entries : List Float} :
    Reads (us ++ vs) entries ↔
      ∃ front back, entries = front ++ back ∧ Reads us front ∧ Reads vs back := by
  constructor
  · intro h
    have hread : List.Forall₂ (fun x v => v.toEntry = .ok x) entries (us ++ vs) := h.flip
    refine ⟨entries.take us.length, entries.drop us.length, (List.take_append_drop _ _).symm,
      ?_, ?_⟩
    · exact (List.forall₂_take_append _ _ _ hread).flip
    · exact (List.forall₂_drop_append _ _ _ hread).flip
  · rintro ⟨front, back, rfl, hfront, hback⟩
    exact List.rel_append hfront hback

/-- The leaves of a list are read block by block, a block for each item. -/
theorem reads_leavesAll_iff {items : List Value} {entries : List Float} :
    Reads (leavesAll items) entries ↔
      ∃ blocks, entries = blocks.flatten ∧
        List.Forall₂ (fun item block => Reads item.leaves block) items blocks := by
  induction items generalizing entries with
  | nil => simp [leavesAll, Reads]
  | cons v items ih =>
    rw [leavesAll, reads_append_iff]
    constructor
    · rintro ⟨block, rest, rfl, hblock, hrest⟩
      obtain ⟨blocks, rfl, hblocks⟩ := ih.1 hrest
      exact ⟨block :: blocks, rfl, .cons hblock hblocks⟩
    · rintro ⟨blocks, rfl, hblocks⟩
      cases hblocks with
      | cons hblock hblocks => exact ⟨_, _, rfl, hblock, ih.2 ⟨_, rfl, hblocks⟩⟩

/-! ### Spelling -/

/-- The nested list has the shape and spells the entries, row after row. -/
def SpellsEntries : List Nat → Value → List Float → Prop
  | [], v, entries => ∃ x, entries = [x] ∧ v.toEntry = .ok x
  | n :: shape, v, entries => ∃ items blocks, v = list items ∧ items.length = n ∧
      entries = blocks.flatten ∧ List.Forall₂ (SpellsEntries shape) items blocks

/-- The nested list spells the tensor. -/
def Spells (v : Value) (t : Tensor Float) : Prop :=
  SpellsEntries t.shape v t.toList

/-- The nested list consists of finite numbers and has the shape. -/
def IsArray : List Nat → Value → Prop
  | [], v => ∃ x, v.toEntry = .ok x ∧ x.isFinite = true
  | n :: shape, v => ∃ items, v = list items ∧ items.length = n ∧ ∀ item ∈ items, IsArray shape item

/-- What is no list has one leaf, which is itself. -/
theorem leaves_of_axes?_nil {v : Value} (h : v.axes? = some []) : v.leaves = [v] := by
  cases v with
  | list items => simp [axes?] at h
  | _ => rfl

/-- What is read as a number has no axes. -/
theorem axes?_of_toEntry {v : Value} {x : Float} (h : v.toEntry = .ok x) : v.axes? = some [] := by
  cases v with
  | list items => cases h
  | _ => rfl

/-- **A list spells some entries exactly if its visible shape and its leaves do.** -/
theorem spellsEntries_iff {shape : List Nat} {v : Value} {entries : List Float} :
    SpellsEntries shape v entries ↔
      v.axes? = some (Shape.visible shape) ∧ Reads v.leaves entries := by
  induction shape generalizing v entries with
  | nil =>
    constructor
    · rintro ⟨x, rfl, hx⟩
      have haxes := axes?_of_toEntry hx
      exact ⟨haxes, by rw [leaves_of_axes?_nil haxes]; exact .cons hx .nil⟩
    · rintro ⟨haxes, hreads⟩
      rw [leaves_of_axes?_nil haxes, Reads, List.forall₂_cons_left_iff] at hreads
      obtain ⟨x, rest, hx, hrest, rfl⟩ := hreads
      obtain rfl := List.forall₂_nil_left_iff.1 hrest
      exact ⟨x, rfl, hx⟩
  | cons n shape ih =>
    have hitems (items : List Value) (blocks : List (List Float)) :
        List.Forall₂ (SpellsEntries shape) items blocks ↔
          (∀ item ∈ items, item.axes? = some (Shape.visible shape)) ∧
            List.Forall₂ (fun item block => Reads item.leaves block) items blocks := by
      rw [← List.forall₂_and_left]
      exact iff_of_eq (congrArg (List.Forall₂ · items blocks)
        (funext fun item => funext fun block => propext ih))
    constructor
    · rintro ⟨items, blocks, rfl, hlength, rfl, hblocks⟩
      obtain ⟨haxes, hreads⟩ := (hitems items blocks).1 hblocks
      exact ⟨axes?_list_eq_iff.2 ⟨hlength, haxes⟩, reads_leavesAll_iff.2 ⟨blocks, rfl, hreads⟩⟩
    · rintro ⟨haxes, hreads⟩
      cases v with
      | list items =>
        obtain ⟨hlength, haxes⟩ := axes?_list_eq_iff.1 haxes
        obtain ⟨blocks, rfl, hblocks⟩ := reads_leavesAll_iff.1 hreads
        exact ⟨items, blocks, rfl, hlength, rfl, (hitems items blocks).2 ⟨haxes, hblocks⟩⟩
      | _ => cases n <;> simp [axes?, Shape.visible] at haxes

/-- The number of entries that are spelled is the size of the shape. -/
theorem SpellsEntries.length_eq {shape : List Nat} {v : Value} {entries : List Float}
    (h : SpellsEntries shape v entries) : entries.length = Shape.size shape := by
  induction shape generalizing v entries with
  | nil =>
    obtain ⟨x, rfl, -⟩ := h
    rfl
  | cons n shape ih =>
    obtain ⟨items, blocks, rfl, rfl, rfl, hblocks⟩ := h
    induction hblocks with
    | nil => simp
    | cons hblock _ ihblocks =>
      rw [List.flatten_cons, List.length_append, ih hblock, ihblocks]
      simp only [Shape.size_cons, List.length_cons, Nat.succ_mul, Nat.add_comm]

/-- There are good results for all items exactly if there is one for each. -/
theorem exists_forall₂_iff {α β : Type} {r : α → β → Prop} {good : β → Prop} {as : List α} :
    (∃ bs, List.Forall₂ r as bs ∧ ∀ b ∈ bs, good b) ↔ ∀ a ∈ as, ∃ b, r a b ∧ good b := by
  induction as with
  | nil => simp
  | cons a as ih =>
    rw [List.forall_mem_cons, ← ih]
    constructor
    · rintro ⟨bs, hbs, hgood⟩
      cases hbs with
      | cons hb hbs =>
        obtain ⟨hgood, hrest⟩ := List.forall_mem_cons.1 hgood
        exact ⟨⟨_, hb, hgood⟩, _, hbs, hrest⟩
    · rintro ⟨⟨b, hb, hgood⟩, bs, hbs, hrest⟩
      exact ⟨b :: bs, .cons hb hbs, List.forall_mem_cons.2 ⟨hgood, hrest⟩⟩

/-- The arrays are the lists that spell finite entries. -/
theorem isArray_iff_entries {shape : List Nat} {v : Value} :
    v.IsArray shape ↔
      ∃ entries, SpellsEntries shape v entries ∧ ∀ x ∈ entries, x.isFinite = true := by
  induction shape generalizing v with
  | nil =>
    constructor
    · rintro ⟨x, hx, hfinite⟩
      exact ⟨[x], ⟨x, rfl, hx⟩, by simpa using hfinite⟩
    · rintro ⟨_, ⟨x, rfl, hx⟩, hfinite⟩
      exact ⟨x, hx, hfinite x (List.mem_singleton_self x)⟩
  | cons n shape ih =>
    constructor
    · rintro ⟨items, rfl, hlength, hitems⟩
      obtain ⟨blocks, hblocks, hfinite⟩ :=
        exists_forall₂_iff.2 fun item hitem => ih.1 (hitems item hitem)
      refine ⟨blocks.flatten, ⟨items, blocks, rfl, hlength, rfl, hblocks⟩, ?_⟩
      simpa [List.mem_flatten] using fun x block hblock hx => hfinite block hblock x hx
    · rintro ⟨_, ⟨items, blocks, rfl, hlength, rfl, hblocks⟩, hfinite⟩
      have hfinite : ∀ block ∈ blocks, ∀ x ∈ block, x.isFinite = true := fun block hblock x hx =>
        hfinite x (List.mem_flatten_of_mem hblock hx)
      have hitems := exists_forall₂_iff.1 ⟨blocks, hblocks, hfinite⟩
      exact ⟨items, rfl, hlength, fun item hitem => ih.2 (hitems item hitem)⟩

/-- **The arrays are the lists that spell a tensor of finite entries.** -/
theorem isArray_iff {shape : List Nat} {v : Value} :
    v.IsArray shape ↔ ∃ t : Tensor Float, t.shape = shape ∧ t.isFinite = true ∧ v.Spells t := by
  rw [isArray_iff_entries]
  constructor
  · rintro ⟨entries, hspells, hfinite⟩
    have hsize : entries.toArray.size = Shape.size shape := hspells.length_eq
    refine ⟨⟨shape, entries.toArray, hsize⟩, rfl, ?_, hspells⟩
    exact Tensor.isFinite_iff.2 hfinite
  · rintro ⟨t, rfl, hfinite, hspells⟩
    exact ⟨t.toList, hspells, Tensor.isFinite_iff.1 hfinite⟩

/-- A list without items spells every tensor whose first axis has no entries, and no other list
does. -/
theorem spells_iff_of_empty {v : Value} {t : Tensor Float} {shape : List Nat}
    (h : t.shape = 0 :: shape) : v.Spells t ↔ v = list [] := by
  have hempty : t.toList = [] := by
    apply List.length_eq_zero_iff.1
    have hsize := t.size_data
    rw [h, Shape.size_cons, Nat.zero_mul] at hsize
    exact hsize
  rw [Spells, h, hempty]
  constructor
  · rintro ⟨items, blocks, rfl, hlength, -, -⟩
    rw [List.length_eq_zero_iff.1 hlength]
  · rintro rfl
    exact ⟨[], [], rfl, rfl, rfl, .nil⟩

/-! ### Reading -/

/-- The shape that a nested list is found to have is visible. -/
theorem visible_of_axes? {v : Value} {shape : List Nat} (h : v.axes? = some shape) :
    Shape.visible shape = shape := by
  induction shape generalizing v with
  | nil => rfl
  | cons n shape ih =>
    cases v with
    | list items =>
      rw [axes?, Option.map_eq_some_iff] at h
      obtain ⟨s, hs, hcons⟩ := h
      obtain ⟨rfl, rfl⟩ := List.cons.inj hcons
      cases items with
      | nil =>
        obtain rfl : [] = s := Option.some.inj hs
        rfl
      | cons item items =>
        have haxes := (commonAxes?_eq_some_iff (List.cons_ne_nil item items)).1 hs
        have hvisible : Shape.visible s = s := ih (haxes item List.mem_cons_self)
        rw [Shape.visible_of_pos (List.length_pos_of_mem List.mem_cons_self), hvisible]
    | _ => simp [axes?] at h

end Value

/-- **Reading finds what is spelled**: a nested list is read as a tensor exactly if it spells it,
and the shape is visible and has not too many axes. -/
theorem Tensor.ofValue_eq_ok_iff {v : Value} {t : Tensor Float} :
    Tensor.ofValue v = .ok t ↔
      v.Spells t ∧ Shape.visible t.shape = t.shape ∧ t.shape.length ≤ Shape.maxAxes := by
  rw [Value.Spells, Value.spellsEntries_iff]
  constructor
  · intro h
    rw [Tensor.ofValue] at h
    split at h
    · cases h
    · next shape haxes =>
      obtain ⟨⟨hlength⟩, -, h⟩ := exists_of_bind h
      obtain ⟨entries, hentries, h⟩ := exists_of_bind h
      split at h
      · cases h
        have hvisible : Shape.visible shape = shape := Value.visible_of_axes? haxes
        exact ⟨⟨by rw [hvisible]; exact haxes, mapM_eq_ok_iff.1 hentries⟩, hvisible, hlength⟩
      · cases h
  · rintro ⟨⟨haxes, hreads⟩, hvisible, hlength⟩
    rw [hvisible] at haxes
    have hsize : t.toList.toArray.size = Shape.size t.shape := t.size_data
    rw [Tensor.ofValue, haxes]
    simp only
    rw [require_bind hlength, mapM_eq_ok_iff.2 hreads, ok_bind, dif_pos hsize]
    rfl

/-! ### Writing -/

namespace Value

/-- The nested form of the entries from a position on spells these entries. -/
theorem spellsEntries_assembleFrom (f : Nat → Float) (shape : List Nat) (k : Nat) :
    SpellsEntries shape (Tensor.assembleFrom (fun k => real (f k)) list shape k)
      ((List.range' k (Shape.size shape)).map f) := by
  induction shape generalizing k with
  | nil => exact ⟨f k, rfl, rfl⟩
  | cons n shape ih =>
    refine ⟨_, (List.range n).map fun i =>
      (List.range' (k + i * Shape.size shape) (Shape.size shape)).map f, rfl, by simp, ?_, ?_⟩
    · rw [Shape.size_cons]
      induction n with
      | zero => simp
      | succ n ihn =>
        rw [List.range_succ, List.map_append, List.flatten_append, ← ihn, Nat.succ_mul,
          ← List.range'_append_1, List.map_append]
        simp
    · rw [List.forall₂_map_left_iff, List.forall₂_map_right_iff, List.forall₂_same]
      exact fun i _ => ih _

/-- **What is written for a tensor spells it**, whatever its shape is. -/
theorem spells_ofTensor (t : Tensor Float) : (ofTensor t).Spells t := by
  have hentries : t.toList = (List.range' 0 (Shape.size t.shape)).map t.entry := by
    have hlength : t.toList.length = Shape.size t.shape := t.size_data
    refine List.ext_getElem (by simp [hlength]) fun k hk _ => ?_
    have hk : k < t.data.size := hk
    simp [Tensor.toList, Tensor.entry, hk]
  rw [Spells, hentries]
  exact spellsEntries_assembleFrom t.entry t.shape 0

end Value

end SelfDual
