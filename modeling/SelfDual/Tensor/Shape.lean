/-!
**Shapes and positions.**

A shape is the list of the lengths of a tensor's axes.  The entries of a tensor stand in a row,
the last axis running fastest; this module converts between positions in that row and coordinates,
and says which shapes fit together.

Main definitions:

* `Shape.maxAxes`, `Shape.maxLength`, `Shape.maxSize` — how large a shape can be;
* `Shape.size` — the number of entries of a shape;
* `Shape.coordinates`, `Shape.position` — from a position to its coordinates and back;
* `Shape.common?` — the shape to which two shapes can be stretched;
* `Shape.source` — the position in a tensor that a position of the stretched tensor shows.

Main results:

* `Shape.position_coordinates` — the coordinates of a position lead back to it;
* `Shape.common?_self` — a shape fits itself.
-/

set_option autoImplicit false

namespace SelfDual.Shape

/-! ### Bounds -/

/-- The greatest number of axes. -/
def maxAxes : Nat := 64

/-- `2 ^ 63`, which a length stays below. -/
def maxLength : Nat := 0x8000000000000000

/-- `2 ^ 60`, which the number of entries stays below, axes without entries left out. -/
def maxSize : Nat := 0x1000000000000000

/-! ### Positions -/

/-- The number of entries. -/
def size : List Nat → Nat
  | [] => 1
  | n :: shape => n * size shape

@[simp] theorem size_nil : size [] = 1 := rfl

@[simp] theorem size_cons (n : Nat) (shape : List Nat) : size (n :: shape) = n * size shape := rfl

/-- The coordinates of a position, the first axis in front. -/
def coordinates : List Nat → Nat → List Nat
  | [], _ => []
  | _ :: shape, k => k / size shape :: coordinates shape (k % size shape)

@[simp] theorem coordinates_nil (k : Nat) : coordinates [] k = [] := rfl

@[simp] theorem coordinates_cons (n : Nat) (shape : List Nat) (k : Nat) :
    coordinates (n :: shape) k = k / size shape :: coordinates shape (k % size shape) := rfl

/-- The position of an entry with given coordinates. -/
def position : List Nat → List Nat → Nat
  | _ :: shape, i :: is => i * size shape + position shape is
  | _, _ => 0

@[simp] theorem position_nil (is : List Nat) : position [] is = 0 := by
  cases is <;> rfl

@[simp] theorem position_cons (n i : Nat) (shape is : List Nat) :
    position (n :: shape) (i :: is) = i * size shape + position shape is := rfl

/-- The coordinates of a position lead back to it. -/
theorem position_coordinates {shape : List Nat} {k : Nat} (h : k < size shape) :
    position shape (coordinates shape k) = k := by
  induction shape generalizing k with
  | nil => simp at h; simp [h]
  | cons n shape ih =>
    have hpos : 0 < size shape := by
      rcases Nat.eq_zero_or_pos (size shape) with h0 | h0
      · simp [h0] at h
      · exact h0
    rw [coordinates_cons, position_cons, ih (Nat.mod_lt k hpos)]
    exact Nat.div_add_mod' k (size shape)

/-! ### Shapes that fit together -/

/-- The shape with lengths one in front, up to `axes` axes. -/
def pad (axes : Nat) (shape : List Nat) : List Nat :=
  List.replicate (axes - shape.length) 1 ++ shape

@[simp] theorem pad_length (shape : List Nat) : pad shape.length shape = shape := by
  simp [pad]

/-- The common length of two axes: equal lengths, or one of them one. -/
def commonLength? (m n : Nat) : Option Nat :=
  if m = n then some m else if m = 1 then some n else if n = 1 then some m else none

@[simp] theorem commonLength?_self (n : Nat) : commonLength? n n = some n := by
  simp [commonLength?]

@[simp] theorem commonLength?_one_left (n : Nat) : commonLength? 1 n = some n := by
  by_cases h : 1 = n <;> simp [commonLength?, h]

@[simp] theorem commonLength?_one_right (n : Nat) : commonLength? n 1 = some n := by
  by_cases h : n = 1 <;> simp [commonLength?, h]

/-- The common lengths of axes, pair by pair. -/
def commonLengths? : List Nat → List Nat → Option (List Nat)
  | m :: s, n :: t => do
    let k ← commonLength? m n
    let ks ← commonLengths? s t
    return k :: ks
  | _, _ => some []

/-- The shape to which both shapes can be stretched: their axes are matched from the last one,
and an axis of length one, or one that is missing, takes any length. -/
def common? (s t : List Nat) : Option (List Nat) :=
  let axes := max s.length t.length
  commonLengths? (pad axes s) (pad axes t)

/-- A shape fits itself. -/
@[simp] theorem common?_self (s : List Nat) : common? s s = some s := by
  have h : ∀ s, commonLengths? s s = some s := by
    intro s
    induction s with
    | nil => rfl
    | cons n s ih => simp [commonLengths?, ih]
  simp [common?, h]

/-- The position in a tensor of shape `shape` that position `k` of the tensor stretched to
`target` shows. -/
def source (target shape : List Nat) (k : Nat) : Nat :=
  position shape
    (List.zipWith (fun n i => if n = 1 then 0 else i) shape
      ((coordinates target k).drop (target.length - shape.length)))

/-- A single entry is shown everywhere. -/
@[simp] theorem source_nil (target : List Nat) (k : Nat) : source target [] k = 0 := by
  simp [source]

end SelfDual.Shape
