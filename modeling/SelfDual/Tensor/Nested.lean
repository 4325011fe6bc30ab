import SelfDual.Tensor.Basic
/-!
**Tensors as nested lists.**

A tensor of doubles is given as a number or as a nested list of numbers whose lists have equal
lengths on each level, and written back in the same form.  A shape is given as a single length or as
the list of the lengths of all axes.

Main definitions:

* `Value.toShape` — the shape that a value gives;
* `Value.axes?` — the shape of a nested list, if it is even;
* `Value.leaves` — its entries in their order;
* `Value.toEntry` — the double that an entry stands for;
* `Tensor.ofValue` — the tensor of a nested list;
* `Tensor.assemble` — the nested form of a tensor, from what a leaf and a list become;
* `Value.ofTensor` — the nested list of a tensor.
-/

set_option autoImplicit false

namespace SelfDual

/-! ### Reading -/

namespace Value

mutual

/-- The shape of a nested list, if all lists on one level have the same length. -/
def axes? : Value → Option (List Nat)
  | list items => (commonAxes? items).map (items.length :: ·)
  | _ => some []

/-- The shape that all items have; that of a number if there are no items. -/
def commonAxes? : List Value → Option (List Nat)
  | [] => some []
  | v :: vs =>
    match axes? v, commonAxes? vs, vs with
    | some s, some _, [] => some s
    | some s, some t, _ :: _ => if s = t then some s else none
    | _, _, _ => none

end

mutual

/-- The entries of a nested list in their order. -/
def leaves : Value → List Value
  | list items => leavesAll items
  | v => [v]

/-- The entries of several nested lists, one after the other. -/
def leavesAll : List Value → List Value
  | [] => []
  | v :: vs => leaves v ++ leavesAll vs

end

/-- The double that an entry stands for: nothing is NaN, a truth value one or zero, and a text
what it reads as. -/
def toEntry : Value → Except Error Float
  | null => .ok (0.0 / 0.0)
  | truth b => .ok (if b then 1 else 0)
  | whole n =>
    let x := Decimal.ofInt n
    if x.isFinite then .ok x else .error (.integerTooLarge n)
  | real x => .ok x
  | text t =>
    match t.string?.bind Decimal.readFloat? with
    | some x => .ok x
    | none => .error (.notANumber t)
  | v => .error (.notNumeric v)

end Value

/-! ### Shapes -/

namespace Value

/-- The length that a value gives; a negative one is found later. -/
def toLength : Value → Except Error Int
  | whole n => if n.natAbs < Shape.maxLength then .ok n else .error .tooManyEntries
  | v => .error (.notAShape v)

/-- The items of a list; a text is the list of its symbols. -/
def items? : Value → Option (List Value)
  | list items => some items
  | text t => some (t.symbols.map fun s => .text (.singleton s))
  | _ => none

/-- The lengths that a value gives: a single one or those of a list. -/
def toLengths (v : Value) : Except Error (List Int) := do
  match v.items? with
  | none => return [← v.toLength]
  | some items =>
    let _ ← require (items.length ≤ Shape.maxAxes) (.tooManyAxes items.length)
    items.mapM toLength

/-- The shape that a value gives. -/
def toShape (v : Value) : Except Error (List Nat) := do
  let lengths ← v.toLengths
  let _ ← require (∀ n ∈ lengths, 0 ≤ n) .negativeLength
  let shape := lengths.map Int.toNat
  let _ ← require (Shape.size (shape.filter (· ≠ 0)) < Shape.maxSize) .tooManyEntries
  return shape

theorem toLengths_whole {k : Nat} (h : k < Shape.maxLength) :
    (whole k).toLengths = .ok [(k : Int)] := by
  simp only [toLengths, items?, toLength, Int.natAbs_natCast, h, if_true, bind, Except.bind, pure,
    Except.pure]

/-- A single length that is not too large is the shape of a vector. -/
theorem toShape_whole {k : Nat} (h : k < Shape.maxSize) : (whole k).toShape = .ok [k] := by
  have length : k < Shape.maxLength := Nat.lt_trans h (by decide)
  have signs : ∀ n ∈ [(k : Int)], 0 ≤ n := by simp
  have size : Shape.size ([k].filter (· ≠ 0)) < Shape.maxSize := by
    rcases Nat.eq_zero_or_pos k with rfl | positive
    · decide
    · have : k ≠ 0 := by omega
      simpa [this] using h
  rw [toShape, toLengths_whole length]
  change (require (∀ n ∈ [(k : Int)], 0 ≤ n) .negativeLength >>= fun _ =>
    require (Shape.size ([k].filter (· ≠ 0)) < Shape.maxSize) .tooManyEntries >>= fun _ =>
      .ok [k]) = .ok [k]
  rw [require_bind signs, require_bind size]

end Value

/-! ### Tensors -/

/-- The tensor of a nested list.  A list that is uneven or too deep is found before any entry is
read. -/
def Tensor.ofValue (v : Value) : Except Error (Tensor Float) :=
  match v.axes? with
  | none => .error .unevenList
  | some shape => do
    let _ ← require (shape.length ≤ Shape.maxAxes) (.tooManyAxes shape.length)
    let entries ← v.leaves.mapM Value.toEntry
    if h : entries.toArray.size = Shape.size shape then
      return ⟨shape, entries.toArray, h⟩
    else
      throw .unevenList

/-! ### Writing -/

namespace Tensor

variable {α β : Type}

/-- The nested form of the entries of a shape from a position on. -/
def assembleFrom (leaf : Nat → β) (node : List β → β) : List Nat → Nat → β
  | [], k => leaf k
  | n :: shape, k =>
    node ((List.range n).map fun i => assembleFrom leaf node shape (k + i * Shape.size shape))

/-- The nested form of a tensor, from what an entry and what a list becomes. -/
def assemble [Zero α] (leaf : α → β) (node : List β → β) (t : Tensor α) : β :=
  assembleFrom (fun k => leaf (t.entry k)) node t.shape 0

end Tensor

/-- The nested list of a tensor. -/
def Value.ofTensor (t : Tensor Float) : Value :=
  t.assemble Value.real Value.list

end SelfDual
