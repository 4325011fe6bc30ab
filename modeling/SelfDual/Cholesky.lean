import SelfDual.Scalar
/-!
**Cholesky factorization.**

A symmetric positive definite matrix is the product of a lower triangular matrix with a positive
diagonal and its transpose.  The rows of the factor are found one after the other; the first pivot
that is refused names the leading minor that is to blame.  Only the lower triangle is read.

In rounded arithmetic two steps have a choice, which pivots are refused and how a scalar is divided
by a diagonal entry; both are parameters.

Main definitions:

* `Cholesky.Variant` — the two choices;
* `Cholesky.Row` — a row of the factor: the entries left of the diagonal, and the diagonal one;
* `Cholesky.forward` — solves with the factor;
* `Cholesky.backward` — solves with its transpose;
* `Cholesky.factor` — the factor of a leading block;
* `Cholesky.solve` — solves with the factored matrix.

Main results:

* `Cholesky.length_factor` — the factor of the block of order `k` has `k` rows;
* `Cholesky.factor_succ` — a factor extends that of the next smaller block;
* `Cholesky.length_forward` — a solve with the factor has a component for every row.
-/

set_option autoImplicit false

namespace SelfDual.Cholesky

variable {R : Type} [Scalar R]

/-- The choices of a factorization. -/
structure Variant (R : Type) where
  /-- Whether a pivot is refused. -/
  refuses : R → Bool
  /-- The quotient of a scalar and a diagonal entry. -/
  quotient : R → R → R

/-- A row of a lower triangular matrix. -/
structure Row (R : Type) where
  below : List R
  diagonal : R

/-- The inner product of two lists, added from the left. -/
def inner (a b : List R) : R :=
  (List.zipWith (· * ·) a b).foldl (· + ·) 0

/-- A scalar less the products of two lists, subtracted from the left. -/
def reduce (s : R) (a b : List R) : R :=
  (List.zipWith (· * ·) a b).foldl (· - ·) s

/-- The solution `w` of `L w = r`, from the top. -/
def forward (v : Variant R) (rows : List (Row R)) (r : List R) : List R :=
  (List.zip rows r).foldl
    (fun w (row, s) => w ++ [v.quotient (reduce s row.below w) row.diagonal]) []

/-- There is one component for every row. -/
theorem length_forward (v : Variant R) (rows : List (Row R)) (r : List R)
    (h : rows.length = r.length) : (forward v rows r).length = r.length := by
  have key : ∀ (pairs : List (Row R × R)) (w : List R),
      (pairs.foldl (fun w (row, s) => w ++ [v.quotient (reduce s row.below w) row.diagonal])
        w).length = w.length + pairs.length := by
    intro pairs
    induction pairs with
    | nil => intro w; rfl
    | cons p pairs ih =>
      intro w
      rw [List.foldl_cons, ih]
      simp only [List.length_append, List.length_cons, List.length_nil]
      omega
  rw [forward, key]
  simp [List.length_zip, h]

/-- The solution `u` of `Lᵀ u = w`, from the bottom: rows and right-hand side are given last one
first, and what is found is put in front of `found`. -/
def backward (v : Variant R) : List (Row R) → List R → List R → List R
  | row :: rows, s :: w, found =>
    let u := v.quotient s row.diagonal
    backward v rows (List.zipWith (fun s l => s - l * u) w row.below.reverse) (u :: found)
  | _, _, found => found

/-- The factor of the leading block of order `k` of the matrix with entries `S i j`, or the order
of the first leading block whose last pivot is refused. -/
def factor (v : Variant R) (S : Nat → Nat → R) : Nat → Except Nat (List (Row R))
  | 0 => .ok []
  | k + 1 => do
    let rows ← factor v S k
    let below := forward v rows ((List.range k).map (S k))
    let pivot := S k k - inner below below
    if v.refuses pivot then
      throw (k + 1)
    else
      return rows ++ [⟨below, Scalar.sqrt pivot⟩]

@[simp] theorem factor_zero (v : Variant R) (S : Nat → Nat → R) :
    factor v S 0 = .ok [] := rfl

/-- A factor extends that of the next smaller block. -/
theorem factor_succ (v : Variant R) (S : Nat → Nat → R) (k : Nat) {rows : List (Row R)}
    (h : factor v S (k + 1) = .ok rows) :
    ∃ block row, factor v S k = .ok block ∧ rows = block ++ [row] := by
  rw [factor] at h
  cases hk : factor v S k with
  | error e => rw [hk] at h; cases h
  | ok block =>
    rw [hk] at h
    simp only [bind, Except.bind] at h
    split at h
    · cases h
    · exact ⟨block, _, rfl, by cases h; rfl⟩

/-- The factor of the block of order `k` has `k` rows. -/
theorem length_factor {v : Variant R} {S : Nat → Nat → R} {k : Nat} {rows : List (Row R)}
    (h : factor v S k = .ok rows) : rows.length = k := by
  induction k generalizing rows with
  | zero => cases h; rfl
  | succ k ih =>
    obtain ⟨block, row, hb, rfl⟩ := factor_succ v S k h
    simp [ih hb]

/-- The solution `u` of `L Lᵀ u = r`. -/
def solve (v : Variant R) (rows : List (Row R)) (r : List R) : List R :=
  backward v rows.reverse (forward v rows r).reverse []

end SelfDual.Cholesky
