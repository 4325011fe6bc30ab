import SelfDual.Scalar
import SelfDual.Tensor.Shape
/-!
**Tensors.**

A tensor is a shape with an entry for each of its positions.  Vectors have one axis, matrices two;
a single number is a tensor without axes.

Main definitions:

* `Tensor` — the type;
* `Tensor.entry` — the entry at a position, zero outside;
* `Tensor.ofFn` — the tensor of a shape with given entries;
* `Tensor.transpose` — the axes in reverse order;
* `Tensor.number` — the number that a tensor without axes is;
* `Tensor.select` — the blocks at chosen positions of the leading axes.

Main results:

* `Tensor.entry_ofFn` — the entries of `ofFn`;
* `Tensor.ext_entry` — a tensor is determined by its shape and its entries;
* `Tensor.select_self` — choosing among all positions of a tensor gives its entries there.
-/

set_option autoImplicit false

namespace SelfDual

/-- A shape with an entry for each of its positions. -/
structure Tensor (α : Type) where
  shape : List Nat
  data : Array α
  size_data : data.size = Shape.size shape

namespace Tensor

variable {α β : Type}

/-! ### Entries -/

/-- The number of entries. -/
def size (t : Tensor α) : Nat := t.data.size

@[simp] theorem size_eq (t : Tensor α) : t.size = Shape.size t.shape := t.size_data

/-- The entry at a position; zero outside. -/
def entry [Zero α] (t : Tensor α) (k : Nat) : α := t.data.getD k 0

/-- The tensor of a shape whose entry at position `k` is `f k`. -/
def ofFn (shape : List Nat) (f : Nat → α) : Tensor α where
  shape := shape
  data := Array.ofFn (n := Shape.size shape) fun k => f k
  size_data := by simp

@[simp] theorem shape_ofFn (shape : List Nat) (f : Nat → α) : (ofFn shape f).shape = shape := rfl

theorem entry_ofFn [Zero α] (shape : List Nat) (f : Nat → α) (k : Nat) :
    (ofFn shape f).entry k = if k < Shape.size shape then f k else 0 := by
  by_cases h : k < Shape.size shape <;> simp [ofFn, entry, Array.getD, h]

/-- The entry of `ofFn` at a position that exists. -/
@[simp] theorem entry_ofFn_of_lt [Zero α] {shape : List Nat} {f : Nat → α} {k : Nat}
    (h : k < Shape.size shape) : (ofFn shape f).entry k = f k := by
  rw [entry_ofFn, if_pos h]

/-- A tensor is determined by its shape and its entries. -/
theorem ext_entry [Zero α] {s t : Tensor α} (hs : s.shape = t.shape)
    (h : ∀ k, k < Shape.size s.shape → s.entry k = t.entry k) : s = t := by
  obtain ⟨shape, a, ha⟩ := s
  obtain ⟨shape', b, hb⟩ := t
  obtain rfl : shape = shape' := hs
  have : a = b := by
    apply Array.ext (by rw [ha, hb])
    intro i h1 h2
    have := h i (by rw [← ha]; exact h1)
    simpa [entry, Array.getD, h1, h2] using this
  subst this
  rfl

/-- The entries in their order. -/
def toList (t : Tensor α) : List α := t.data.toList

/-- Whether all entries have a property. -/
def all (t : Tensor α) (p : α → Bool) : Bool := t.data.all p

/-- Whether some entry has a property. -/
def any (t : Tensor α) (p : α → Bool) : Bool := t.data.any p

/-! ### Building tensors -/

/-- A single number. -/
def scalar (a : α) : Tensor α := ⟨[], #[a], rfl⟩

@[simp] theorem shape_scalar (a : α) : (scalar a).shape = [] := rfl

@[simp] theorem entry_scalar [Zero α] (a : α) : (scalar a).entry 0 = a := rfl

/-- The vector of the items of a list. -/
def ofList (xs : List α) : Tensor α := ⟨[xs.length], xs.toArray, by simp⟩

@[simp] theorem shape_ofList (xs : List α) : (ofList xs).shape = [xs.length] := rfl

@[simp] theorem toList_ofList (xs : List α) : (ofList xs).toList = xs := rfl

/-- The entries of a vector are the items of its list. -/
theorem entry_ofList [Zero α] (xs : List α) (k : Nat) : (ofList xs).entry k = xs.getD k 0 := by
  by_cases h : k < xs.length <;> simp [ofList, entry, Array.getD, List.getD, h]

/-- The tensor of a shape with equal entries. -/
def full (shape : List Nat) (a : α) : Tensor α := ofFn shape fun _ => a

@[simp] theorem shape_full (shape : List Nat) (a : α) : (full shape a).shape = shape := rfl

theorem entry_full [Zero α] {shape : List Nat} {k : Nat} (a : α) (h : k < Shape.size shape) :
    (full shape a).entry k = a := by
  simp [full, h]

/-- The tensor with every entry replaced. -/
def map (f : α → β) (t : Tensor α) : Tensor β where
  shape := t.shape
  data := t.data.map f
  size_data := by simp [t.size_data]

@[simp] theorem shape_map (f : α → β) (t : Tensor α) : (t.map f).shape = t.shape := rfl

/-- An entry that exists is replaced. -/
theorem entry_map [Zero α] [Zero β] (f : α → β) {t : Tensor α} {k : Nat}
    (h : k < Shape.size t.shape) : (t.map f).entry k = f (t.entry k) := by
  have hk : k < t.data.size := by rw [t.size_data]; exact h
  simp [map, entry, Array.getD, hk]

/-- The same entries as a vector. -/
def flatten (t : Tensor α) : Tensor α := ⟨[t.size], t.data, by simp [t.size_data]⟩

/-- The tensor with its axes in reverse order. -/
def transpose [Zero α] (t : Tensor α) : Tensor α :=
  ofFn t.shape.reverse fun k =>
    t.entry (Shape.position t.shape (Shape.coordinates t.shape.reverse k).reverse)

@[simp] theorem shape_transpose [Zero α] (t : Tensor α) :
    t.transpose.shape = t.shape.reverse := rfl

/-- The tensor stretched to a shape: an axis of length one, or one that is missing, repeats. -/
def stretch [Zero α] (t : Tensor α) (target : List Nat) : Tensor α :=
  if t.shape = target then t
  else ofFn target fun k => t.entry (Shape.source target t.shape k)

@[simp] theorem shape_stretch [Zero α] (t : Tensor α) (target : List Nat) :
    (t.stretch target).shape = target := by
  unfold stretch
  split <;> simp_all

/-- A tensor stretched to its own shape is itself. -/
@[simp] theorem stretch_shape [Zero α] (t : Tensor α) : t.stretch t.shape = t := by
  simp [stretch]

/-- A single number stretched to a shape stands everywhere. -/
theorem entry_stretch_scalar [Zero α] (a : α) {target : List Nat} {k : Nat}
    (h : k < Shape.size target) : ((scalar a).stretch target).entry k = a := by
  unfold stretch
  split
  · rename_i hs
    subst hs
    obtain rfl : k = 0 := by simpa using h
    rfl
  · simp [h]

/-! ### Choosing positions -/

/-- The positions of a shape that `keep` chooses, in order. -/
def chosen (shape : List Nat) (keep : Nat → Bool) : List Nat :=
  (List.range (Shape.size shape)).filter keep

/-- The blocks of a tensor at chosen positions of its leading axes, one after the other.  The
lengths of the leading axes are given and must be those of the tensor. -/
def select [Zero α] (t : Tensor α) (leading : List Nat) (keep : Nat → Bool) :
    Except Error (Tensor α) :=
  let rest := t.shape.drop leading.length
  if t.shape.take leading.length = leading ∧ rest.length < Shape.maxAxes then
    let places := chosen leading keep
    let block := Shape.size rest
    .ok (ofFn (places.length :: rest) fun k =>
      t.entry (places.getD (k / block) 0 * block + k % block))
  else
    .error .maskLength

/-- Choosing among all positions of a tensor gives its entries there, as a vector. -/
theorem select_self [Zero α] (t : Tensor α) (keep : Nat → Bool) :
    t.select t.shape keep = .ok (ofList ((chosen t.shape keep).map t.entry)) := by
  rw [select, if_pos (by simp [Shape.maxAxes])]
  refine congrArg Except.ok (ext_entry (by simp) ?_)
  intro k hk
  have hk' : k < (chosen t.shape keep).length := by simpa using hk
  rw [entry_ofFn_of_lt (by simpa using hk'), entry_ofList]
  simp [Nat.mod_one, hk']

/-! ### Single numbers -/

/-- The number that a tensor without axes is. -/
def number [Zero α] (t : Tensor α) : Except Error α :=
  match t.shape with
  | [] => .ok (t.entry 0)
  | shape => .error (.hasAxes shape)

@[simp] theorem number_scalar [Zero α] (a : α) : (scalar a).number = .ok a := rfl

end Tensor

end SelfDual
