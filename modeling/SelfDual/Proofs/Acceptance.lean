import SelfDual.Problem
import SelfDual.Proofs.NestedLists
/-!
**Which data are accepted.**

Data are accepted if they are finite and their shapes fit together.  Nested lists are accepted if
they say such data: a vector, a matrix and a vector of finite numbers.  A program keeps the data
that its lists spell, so that the lists written for it are accepted again, as the same program.  A
matrix without rows is the one case where a list does not show the whole shape: its list is empty,
and the number of its columns is taken from the other data.

Main results:

* `Problem.accept_eq_ok_iff` — **what is accepted as a program**: its data, but for a matrix without
  rows given as a list;
* `Problem.exists_accept` — data that are accepted;
* `Problem.ofValues_eq_ok_iff` — **nested lists are accepted as the program that they spell**;
* `Problem.exists_ofValues_iff` — the lists that are accepted are arrays of finite numbers that fit;
* `Problem.ofValues_round_trip` — **which nested lists are accepted**, and that the lists written
  for a program are accepted as this program.
-/

set_option autoImplicit false

namespace SelfDual.Problem

/-! ### Tensors -/

section Tensors

variable {R : Type}

theorem vectorLength_of_shape {t : Tensor R} {n : Nat} (field : String) (h : t.shape = [n]) :
    vectorLength field t = .ok ⟨n, h⟩ := by
  obtain ⟨shape, data, size_data⟩ := t
  cases h
  rfl

theorem matrixLengths_of_shape {t : Tensor R} {m n : Nat} (field : String) (h : t.shape = [m, n]) :
    matrixLengths field t = .ok ⟨(m, n), h⟩ := by
  obtain ⟨shape, data, size_data⟩ := t
  cases h
  rfl

variable [Scalar R] {c A b : Tensor R}

/-- An accepted program has the data given, but for a matrix without rows given as a list. -/
theorem fields_of_accept {p : Problem R} (h : accept c A b = .ok p) :
    p.c = c ∧ p.A = asMatrix p.n A ∧ p.b = b := by
  obtain ⟨⟨n, hc⟩, -, h⟩ := exists_of_bind h
  obtain ⟨⟨hn⟩, -, h⟩ := exists_of_bind h
  obtain ⟨⟨⟨m, columns⟩, hA⟩, -, h⟩ := exists_of_bind h
  obtain ⟨⟨rows, hb⟩, -, h⟩ := exists_of_bind h
  obtain ⟨⟨hcolumns⟩, -, h⟩ := exists_of_bind h
  obtain ⟨⟨hrows⟩, -, h⟩ := exists_of_bind h
  obtain ⟨⟨hfinite_c⟩, -, h⟩ := exists_of_bind h
  obtain ⟨⟨hfinite_A⟩, -, h⟩ := exists_of_bind h
  obtain ⟨⟨hfinite_b⟩, -, h⟩ := exists_of_bind h
  cases h
  exact ⟨rfl, rfl, rfl⟩

/-- Finite data of shapes that fit together are accepted. -/
theorem exists_accept {m n : Nat} (hn : 0 < n) (hc : c.shape = [n])
    (hA : (asMatrix n A).shape = [m, n]) (hb : b.shape = [m]) (hfinite_c : c.isFinite = true)
    (hfinite_A : (asMatrix n A).isFinite = true) (hfinite_b : b.isFinite = true) :
    ∃ p, accept c A b = .ok p := by
  refine ⟨⟨m, n, c, asMatrix n A, b, hn, hc, hA, hb, hfinite_c, hfinite_A, hfinite_b⟩, ?_⟩
  simp only [accept, vectorLength_of_shape "c" hc, matrixLengths_of_shape "A" hA,
    vectorLength_of_shape "b" hb, ok_bind, require_bind hn, require_bind hfinite_c,
    require_bind hfinite_A, require_bind hfinite_b]
  rw [require_bind rfl, require_bind rfl]
  rfl

/-- A matrix is what it is given as. -/
theorem asMatrix_of_shape {m n : Nat} (h : A.shape = [m, n]) (k : Nat) : asMatrix k A = A :=
  if_neg (by rw [h]; simp)

/-- Programs with the same data are the same: their shapes are those of the data. -/
theorem eq_of_data {p q : Problem R} (hc : p.c = q.c) (hA : p.A = q.A) (hb : p.b = q.b) :
    p = q := by
  obtain ⟨m, n, c, A, b, _, _, shape_A, _, _, _, _⟩ := p
  obtain ⟨m', n', c', A', b', _, _, shape_A', _, _, _, _⟩ := q
  obtain rfl : c = c' := hc
  obtain rfl : A = A' := hA
  obtain rfl : b = b' := hb
  obtain ⟨rfl, rfl⟩ : m = m' ∧ n = n' := by simpa using shape_A.symm.trans shape_A'
  rfl

/-- **What is accepted as a program**: its data, but for a matrix without rows given as a list. -/
theorem accept_eq_ok_iff {p : Problem R} :
    accept c A b = .ok p ↔ p.c = c ∧ p.A = asMatrix p.n A ∧ p.b = b := by
  refine ⟨fields_of_accept, ?_⟩
  rintro ⟨rfl, hA, rfl⟩
  obtain ⟨q, hq⟩ := exists_accept p.n_pos p.shape_c (hA ▸ p.shape_A) p.shape_b p.finite_c
    (hA ▸ p.finite_A) p.finite_b
  obtain ⟨hc, hmatrix, hb⟩ := fields_of_accept hq
  have hn : q.n = p.n := by
    have hshape := q.shape_c
    rw [hc, p.shape_c] at hshape
    exact (List.cons.inj hshape).1.symm
  rw [hq, eq_of_data hc (by rw [hmatrix, hn, hA]) hb]

/-- **Every program is what is accepted of its data.** -/
theorem accept_data (p : Problem R) : accept p.c p.A p.b = .ok p :=
  accept_eq_ok_iff.2 ⟨rfl, (asMatrix_of_shape p.shape_A _).symm, rfl⟩

end Tensors

/-! ### Nested lists -/

section NestedLists

variable {c A b : Value}

/-- A nested list is read as a vector exactly if it spells it. -/
theorem ofValue_vector_iff {v : Value} {t : Tensor Float} {n : Nat} (h : t.shape = [n]) :
    Tensor.ofValue v = .ok t ↔ v.Spells t := by
  have hvisible : Shape.visible t.shape = t.shape := by rw [h, Shape.visible_vector]
  have haxes : t.shape.length ≤ Shape.maxAxes := by
    rw [h]
    exact Nat.le_of_ble_eq_true rfl
  rw [Tensor.ofValue_eq_ok_iff]
  exact ⟨And.left, fun hspells => ⟨hspells, hvisible, haxes⟩⟩

/-- A nested list is read as a matrix exactly if it spells it; without rows, it is the empty one. -/
theorem ofValue_matrix_iff {v : Value} {M : Tensor Float} {m n : Nat} (h : M.shape = [m, n]) :
    (∃ t, Tensor.ofValue v = .ok t ∧ M = asMatrix n t) ↔ v.Spells M := by
  rcases Nat.eq_zero_or_pos m with rfl | hm
  · have hM : M = Tensor.ofFn [0, n] fun _ => 0 :=
      Tensor.ext_entry h fun k hk => by simp [h] at hk
    have hempty (t : Tensor Float) (ht : t.shape = [0]) : asMatrix n t = M := by
      rw [asMatrix, if_pos ht, hM]
    rw [Value.spells_iff_of_empty h]
    constructor
    · rintro ⟨t, ht, rfl⟩
      have hspells := (Tensor.ofValue_eq_ok_iff.1 ht).1
      by_cases hshape : t.shape = [0]
      · exact (Value.spells_iff_of_empty hshape).1 hspells
      · rw [asMatrix, if_neg hshape] at h
        exact (Value.spells_iff_of_empty h).1 hspells
    · rintro rfl
      let t : Tensor Float := ⟨[0], #[], rfl⟩
      have ht : Tensor.ofValue (.list []) = .ok t :=
        (ofValue_vector_iff rfl).2 ((Value.spells_iff_of_empty rfl).2 rfl)
      exact ⟨t, ht, (hempty t rfl).symm⟩
  · have hvisible : Shape.visible M.shape = M.shape := by rw [h, Shape.visible_matrix hm]
    have haxes : M.shape.length ≤ Shape.maxAxes := by
      rw [h]
      exact Nat.le_of_ble_eq_true rfl
    constructor
    · rintro ⟨t, ht, rfl⟩
      have hshape : t.shape ≠ [0] := by
        intro hshape
        rw [asMatrix, if_pos hshape] at h
        exact Nat.ne_of_lt hm (List.cons.inj h).1
      rw [asMatrix, if_neg hshape]
      exact (Tensor.ofValue_eq_ok_iff.1 ht).1
    · intro hspells
      exact ⟨M, Tensor.ofValue_eq_ok_iff.2 ⟨hspells, hvisible, haxes⟩, (asMatrix_of_shape h n).symm⟩

/-- **Nested lists are accepted as the program that they spell**, and as no other. -/
theorem ofValues_eq_ok_iff {p : Problem Float} :
    ofValues c A b = .ok p ↔ c.Spells p.c ∧ A.Spells p.A ∧ b.Spells p.b := by
  simp only [ofValues, bind_eq_ok_iff, accept_eq_ok_iff]
  rw [← ofValue_vector_iff p.shape_c, ← ofValue_matrix_iff p.shape_A,
    ← ofValue_vector_iff p.shape_b]
  constructor
  · rintro ⟨c', hc, A', hA, b', hb, rfl, hmatrix, rfl⟩
    exact ⟨hc, ⟨A', hA, hmatrix⟩, hb⟩
  · rintro ⟨hc, ⟨A', hA, hmatrix⟩, hb⟩
    exact ⟨_, hc, A', hA, _, hb, rfl, hmatrix, rfl⟩

/-- The nested lists that are accepted are arrays of finite numbers whose shapes fit together, with
one variable at least. -/
theorem exists_ofValues_iff :
    (∃ p, ofValues c A b = .ok p) ↔
      ∃ m n, 0 < n ∧ c.IsArray [n] ∧ A.IsArray [m, n] ∧ b.IsArray [m] := by
  simp only [ofValues_eq_ok_iff, Value.isArray_iff]
  constructor
  · rintro ⟨p, hc, hA, hb⟩
    exact ⟨p.m, p.n, p.n_pos, ⟨p.c, p.shape_c, p.finite_c, hc⟩, ⟨p.A, p.shape_A, p.finite_A, hA⟩,
      ⟨p.b, p.shape_b, p.finite_b, hb⟩⟩
  · rintro ⟨m, n, hn, ⟨c', hc, hfinite_c, hspells_c⟩, ⟨A', hA, hfinite_A, hspells_A⟩,
      ⟨b', hb, hfinite_b, hspells_b⟩⟩
    exact ⟨⟨m, n, c', A', b', hn, hc, hA, hb, hfinite_c, hfinite_A, hfinite_b⟩, hspells_c,
      hspells_A, hspells_b⟩

/-- The list that is written for a matrix without rows is empty. -/
theorem ofTensor_of_no_rows (p : Problem Float) (h : p.m = 0) : Value.ofTensor p.A = .list [] := by
  have hshape : p.A.shape = 0 :: [p.n] := by rw [p.shape_A, h]
  exact (Value.spells_iff_of_empty hshape).1 (Value.spells_ofTensor p.A)

/-- **Which nested lists are accepted, and that programs survive being written.**  Three nested
lists are accepted exactly if the first is a vector of `n ≥ 1` finite numbers, the second a matrix
of `m` rows and `n` columns of them, which is the empty list if there are no rows, and the third a
vector of `m`; else there is an error.  What is accepted is the program that the lists spell, and
the lists written for it are accepted as the same program, although the list of a matrix without
rows does not show its columns. -/
theorem ofValues_round_trip (c A b : Value) :
    ((∃ p, ofValues c A b = .ok p) ↔
      ∃ m n, 0 < n ∧ c.IsArray [n] ∧ A.IsArray [m, n] ∧ b.IsArray [m]) ∧
    ((¬∃ m n, 0 < n ∧ c.IsArray [n] ∧ A.IsArray [m, n] ∧ b.IsArray [m]) →
      ∃ e, ofValues c A b = .error e) ∧
    ∀ p, ofValues c A b = .ok p →
      (c.Spells p.c ∧ A.Spells p.A ∧ b.Spells p.b) ∧
      ofValues (.ofTensor p.c) (.ofTensor p.A) (.ofTensor p.b) = .ok p ∧
      (p.m = 0 → Value.ofTensor p.A = .list []) := by
  refine ⟨exists_ofValues_iff, ?_, fun p hp => ⟨ofValues_eq_ok_iff.1 hp, ?_, ofTensor_of_no_rows p⟩⟩
  · rw [← exists_ofValues_iff]
    intro hrejected
    cases hresult : ofValues c A b with
    | ok p => exact absurd ⟨p, hresult⟩ hrejected
    | error e => exact ⟨e, rfl⟩
  · exact ofValues_eq_ok_iff.2
      ⟨Value.spells_ofTensor p.c, Value.spells_ofTensor p.A, Value.spells_ofTensor p.b⟩

/-- One variable without constraints is accepted, written and accepted again; without a variable
there is an error. -/
theorem ofValues_round_trip_of_empty :
    (∃ p, ofValues (.list [.real 1]) (.list []) (.list []) = .ok p ∧ p.m = 0 ∧
      Value.ofTensor p.A = .list [] ∧
      ofValues (.ofTensor p.c) (.ofTensor p.A) (.ofTensor p.b) = .ok p) ∧
    ∃ e, ofValues (.list []) (.list []) (.list []) = .error e := by
  have hempty (shape : List Nat) : (Value.list []).IsArray (0 :: shape) := ⟨[], rfl, rfl, by simp⟩
  have hone : (Value.list [.real 1]).IsArray [1] :=
    ⟨[.real 1], rfl, rfl, List.forall_mem_singleton.2 ⟨1, rfl, by decide⟩⟩
  constructor
  · obtain ⟨haccepted, -, hround⟩ :=
      ofValues_round_trip (.list [.real 1]) (.list []) (.list [])
    obtain ⟨p, hp⟩ := haccepted.2 ⟨0, 1, Nat.one_pos, hone, hempty [1], hempty []⟩
    obtain ⟨⟨-, -, hb⟩, hagain, hwritten⟩ := hround p hp
    rw [Value.Spells, p.shape_b] at hb
    obtain ⟨items, -, hitems, hlength, -, -⟩ := hb
    cases hitems
    exact ⟨p, hp, hlength.symm, hwritten hlength.symm, hagain⟩
  · refine (ofValues_round_trip (.list []) (.list []) (.list [])).2.1 ?_
    rintro ⟨m, n, hn, ⟨items, hitems, hlength, -⟩, -, -⟩
    cases hitems
    exact Nat.ne_of_lt hn hlength

end NestedLists

end SelfDual.Problem
