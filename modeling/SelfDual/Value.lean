import SelfDual.Decimal.Reader
import SelfDual.Decimal.Shortest
import SelfDual.Text.Quoted
/-!
**Values as a user gives them.**

Settings and problem data arrive as values whose kind is not known beforehand: nothing, a truth
value, an integer of any size, a double, a text, a list or a record.  This module holds the type
and how a value reads inside a message.

Main definitions:

* `Value` — such a value;
* `Value.quote` — how it reads with texts in quotes, as it does inside a list;
* `Value.display` — its text, where a text stands for itself;
* `Value.string?` — the string that it stands for, if it is a text;
* `Value.isTrue` — whether it counts as true;
* `Value.equalsInt` — whether it is the given integer.
-/

set_option autoImplicit false

namespace SelfDual

/-- A value of a kind that is not known beforehand. -/
inductive Value where
  | null
  | truth (b : Bool)
  | whole (n : Int)
  | real (x : Float)
  | text (t : Text)
  | list (items : List Value)
  | record (fields : List (Text × Value))
  deriving Inhabited, Repr

namespace Value

/-! ### The text of a value -/

/-- The text of a truth value. -/
def truthText (b : Bool) : String :=
  if b then "True" else "False"

mutual

/-- The text of a value, texts in quotes. -/
def quote : Value → String
  | null => "None"
  | truth b => truthText b
  | whole n => toString n
  | real x => Decimal.shortestText x
  | text t => t.quoted
  | list items => "[" ++ ", ".intercalate (quoteAll items) ++ "]"
  | record fields => "\x7b" ++ ", ".intercalate (quoteFields fields) ++ "\x7d"

/-- The texts of the items of a list. -/
def quoteAll : List Value → List String
  | [] => []
  | v :: vs => quote v :: quoteAll vs

/-- The texts of the fields of a record. -/
def quoteFields : List (Text × Value) → List String
  | [] => []
  | (key, v) :: fields => (key.quoted ++ ": " ++ quote v) :: quoteFields fields

end

/-- The text of a value; a text stands for itself. -/
def display : Value → Text
  | text t => t
  | v => quote v

@[simp] theorem display_text (t : Text) : (text t).display = t := rfl

/-! ### Questions about a value -/

/-- The string that the value stands for, if it is a text. -/
def string? : Value → Option String
  | text t => t.string?
  | _ => none

@[simp] theorem string?_text (s : String) : (text s).string? = some s := by
  simp [string?]

/-- Whether the value counts as true: all do but nothing, zero and what is empty. -/
def isTrue : Value → Bool
  | null => false
  | truth b => b
  | whole n => n != 0
  | real x => x != 0
  | text t => !t.isEmpty
  | list items => !items.isEmpty
  | record fields => !fields.isEmpty

/-- The integer that a double is, if it is one. -/
def integerOf? (x : Float) : Option Int :=
  match Decimal.Binary.ofFloat x with
  | .finite negative m e =>
    let q := Decimal.Ratio.ofScaled m 2 e
    if q.num % q.den = 0 then
      some (if negative then -(q.num / q.den : Nat) else (q.num / q.den : Nat))
    else none
  | _ => none

/-- The integer that the value is, whatever its kind. -/
def integer? : Value → Option Int
  | truth b => some (if b then 1 else 0)
  | whole n => some n
  | real x => integerOf? x
  | _ => none

/-- Whether the value equals the integer. -/
def equalsInt (v : Value) (n : Int) : Bool :=
  v.integer? == some n

/-- The double nearest to the value if it is a number, infinite for integers too large. -/
def number? : Value → Option Float
  | truth b => some (if b then 1 else 0)
  | whole n => some (Decimal.ofInt n)
  | real x => some x
  | _ => none

end Value

end SelfDual
