/-!
**Texts and their symbols.**

A character beyond U+FFFF can be spelled as two units of sixteen bits, its halves.  Such a spelling
may be cut, and then a half is left that stands for no character.  A text is a list of symbols, each
a character or a half that stands alone, so that nothing of what is given is lost.

Main definitions:

* `Symbol` — a symbol, with its code point `Symbol.code`;
* `Text` — a list of symbols;
* `Text.ofString`, `Text.string?` — texts and strings;
* `Text.join` — several texts, one after the other.

Main results:

* `Symbol.ofCode?_code` — a symbol is known by its code point;
* `Text.string?_ofString` — the text of a string stands for that string;
* `Text.join_singleton` — a text is its symbols, one after the other.
-/

set_option autoImplicit false

namespace SelfDual

/-! ### Symbols -/

/-- A character, or half of one. -/
inductive Symbol where
  | char (c : Char)
  /-- The half with this number, the first of which has the code point U+D800. -/
  | half (k : Fin 0x800)
  deriving DecidableEq, Repr

namespace Symbol

/-- The code point of a symbol. -/
def code : Symbol → Nat
  | char c => c.toNat
  | half k => 0xd800 + k

/-- The symbol of a code point. -/
def ofCode? (n : Nat) : Option Symbol :=
  if n.isValidChar then some (char (Char.ofNat n))
  else if h : 0xd800 ≤ n ∧ n < 0xe000 then some (half ⟨n - 0xd800, by omega⟩)
  else none

/-- A symbol is known by its code point. -/
@[simp] theorem ofCode?_code (s : Symbol) : ofCode? s.code = some s := by
  cases s with
  | char c =>
    have h : c.toNat.isValidChar := c.valid
    simp [ofCode?, code, h]
  | half k =>
    have h : ¬ (0xd800 + (k : Nat)).isValidChar := by
      simp only [Nat.isValidChar]
      omega
    have h' : 0xd800 ≤ 0xd800 + (k : Nat) ∧ 0xd800 + (k : Nat) < 0xe000 := by omega
    simp [ofCode?, code, h, h']

/-- The character that a symbol is. -/
def char? : Symbol → Option Char
  | char c => some c
  | half _ => none

/-- Whether a symbol is a character with a property. -/
def satisfies (p : Char → Bool) : Symbol → Bool
  | char c => p c
  | half _ => false

@[simp] theorem satisfies_char (p : Char → Bool) (c : Char) : (char c).satisfies p = p c := rfl

end Symbol

/-! ### Texts -/

/-- A list of symbols. -/
structure Text where
  symbols : List Symbol
  deriving DecidableEq, Repr

namespace Text

/-- The text of a string. -/
def ofString (s : String) : Text := ⟨s.toList.map .char⟩

instance instCoeString : Coe String Text := ⟨ofString⟩

/-- The string that a text stands for, if no half stands alone in it. -/
def string? (t : Text) : Option String :=
  (t.symbols.mapM Symbol.char?).map String.ofList

/-- The text of a string stands for that string. -/
@[simp] theorem string?_ofString (s : String) : (ofString s).string? = some s := by
  have key : ∀ cs : List Char, (cs.map Symbol.char).mapM Symbol.char? = some cs := by
    intro cs
    induction cs with
    | nil => rfl
    | cons c cs ih => simp [Symbol.char?, ih]
  simp [string?, ofString, key]

/-- Strings of the same text are equal. -/
theorem ofString_inj {s t : String} : ofString s = ofString t ↔ s = t := by
  constructor
  · intro h
    have := congrArg string? h
    simpa using this
  · rintro rfl
    rfl

instance instInhabited : Inhabited Text := ⟨⟨[]⟩⟩

instance instAppend : Append Text := ⟨fun a b => ⟨a.symbols ++ b.symbols⟩⟩

@[simp] theorem symbols_append (a b : Text) : (a ++ b).symbols = a.symbols ++ b.symbols := rfl

/-- The text of a single symbol. -/
def singleton (s : Symbol) : Text := ⟨[s]⟩

/-- Several texts, one after the other. -/
def join (texts : List Text) : Text := ⟨texts.flatMap symbols⟩

@[simp] theorem symbols_join (texts : List Text) :
    (join texts).symbols = texts.flatMap symbols := rfl

/-- A text is its symbols, one after the other. -/
theorem join_singleton (ss : List Symbol) : join (ss.map singleton) = ⟨ss⟩ := by
  simp [join, singleton, List.flatMap_map]

/-- Whether a text has no symbol. -/
def isEmpty (t : Text) : Bool := t.symbols.isEmpty

/-- The number of symbols. -/
def length (t : Text) : Nat := t.symbols.length

/-- The first symbols of a text. -/
def take (t : Text) (n : Nat) : Text := ⟨t.symbols.take n⟩

/-- Whether a text begins with another one. -/
def startsWith (t start : Text) : Bool := start.symbols.isPrefixOf t.symbols

/-- The code points of a text; their order is the order of texts. -/
def codes (t : Text) : List Nat := t.symbols.map Symbol.code

end Text

end SelfDual
