import SelfDual.Decimal.General
import SelfDual.Value
/-!
**Conversions in a text.**

A text such as `iter %d: alpha=%.3e` or `[%(levelname)s] %(message)s` holds conversions.  Each
begins with a percent sign and ends with a letter; between them stand the name of a field, flags, a
width and a precision.  Filling the text in replaces every conversion by what it writes of a datum:
the next one of several arguments, or the field it names.

Main definitions:

* `Journal.Datum` — what a conversion writes;
* `Journal.Conversion`, `Journal.Conversion.write?` — a conversion and what it writes;
* `Journal.Piece`, `Journal.pieces?` — a text taken apart;
* `Journal.fillInOrder?` — a text filled in from arguments in order;
* `Journal.fillByName?` — a text filled in from named fields.

Main results:

* `Journal.takeInOrder_literals`, `Journal.takeByName_literals` — a text without conversions stands
  for itself.
-/

set_option autoImplicit false

namespace SelfDual.Journal

/-! ### What is written -/

/-- What a conversion writes: a value, or a thing of another kind, known by its text and its text
in quotes. -/
inductive Datum where
  | value (v : Value)
  | other (shown quoted : String)

namespace Datum

/-- The text of a datum. -/
def shown : Datum → Text
  | value v => v.display
  | other s _ => s

/-- How a datum reads, texts in quotes. -/
def quoted : Datum → String
  | value v => v.quote
  | other _ s => s

/-- Several data in parentheses, a single one with a comma after it. -/
def group (data : List Datum) : Datum :=
  let text :=
    match data with
    | [d] => "(" ++ d.quoted ++ ",)"
    | data => "(" ++ ", ".intercalate (data.map quoted) ++ ")"
  other text text

/-- Named data in braces. -/
def record (fields : List (Text × Datum)) : Datum :=
  let text := "\x7b" ++
    ", ".intercalate (fields.map fun (name, d) => name.quoted ++ ": " ++ d.quoted) ++ "\x7d"
  other text text

/-- The integer that a datum is; a double is none. -/
def integer? : Datum → Option Int
  | value (.truth b) => some (if b then 1 else 0)
  | value (.whole n) => some n
  | _ => none

/-- The integer that a datum is, a double without its fraction. -/
def wholePart? : Datum → Option Int
  | value (.real x) =>
    match Decimal.Binary.ofFloat x with
    | .finite negative m e =>
      let q := Decimal.Ratio.ofScaled m 2 e
      some (if negative then -(q.num / q.den : Nat) else (q.num / q.den : Nat))
    | _ => none
  | d => d.integer?

/-- The double that a datum is; an integer beyond the largest double is none. -/
def double? : Datum → Option Float
  | value (.real x) => some x
  | d => d.integer?.bind fun n =>
    let x := Decimal.ofInt n
    if x.isFinite then some x else none

/-- The symbol that a datum is: a text of one symbol, or the code point that an integer is. -/
def symbol? : Datum → Option Symbol
  | value (.text t) =>
    match t.symbols with
    | [s] => some s
    | _ => none
  | d => d.integer?.bind fun n => if 0 ≤ n then Symbol.ofCode? n.toNat else none

end Datum

/-! ### Conversions -/

/-- How a datum is written. -/
structure Conversion where
  flags : List Char
  width : Nat
  precision : Option Nat
  letter : Char

/-- The flags of a conversion: another form, zeros in front, signs of all numbers, a blank for a
plus sign, the left end of the width. -/
def isFlag (c : Char) : Bool := c ∈ ['#', '0', '+', ' ', '-']

namespace Conversion

/-- The greatest width and precision. -/
def maxCount : Nat := 0x7fffffff

/-- A run of digits at the front as a number, zero if there is none, and the rest; nothing if the
number is too large. -/
def readCount? (ss : List Symbol) : Option (Nat × List Symbol) :=
  let digits := ss.takeWhile (·.satisfies Char.isDigit)
  let n := digits.foldl (fun n d => 10 * n + (d.code - '0'.toNat)) 0
  if n ≤ maxCount then some (n, ss.dropWhile (·.satisfies Char.isDigit)) else none

/-- The precision after a point, if there is one, and the rest. -/
def readPrecision? : List Symbol → Option (Option Nat × List Symbol)
  | .char '.' :: ss => (readCount? ss).map fun (n, rest) => (some n, rest)
  | ss => some (none, ss)

/-- The rest after a letter for the size of a number, which says nothing. -/
def dropSize : List Symbol → List Symbol
  | s :: ss => if s.satisfies (· ∈ ['h', 'l', 'L']) then ss else s :: ss
  | [] => []

/-- The conversion whose flags stand at the front, and the rest. -/
def read? (ss : List Symbol) : Option (Conversion × List Symbol) := do
  let flags := (ss.takeWhile (·.satisfies isFlag)).filterMap Symbol.char?
  let (width, ss) ← readCount? (ss.dropWhile (·.satisfies isFlag))
  let (precision, ss) ← readPrecision? ss
  match dropSize ss with
  | .char letter :: rest => some ({ flags, width, precision, letter }, rest)
  | _ => none

/-! #### Texts -/

/-- Blanks up to the width beside something of a length. -/
def blanks (c : Conversion) (length : Nat) : Text :=
  ⟨List.replicate (c.width - length) (.char ' ')⟩

/-- A text put into the width: at the left end if asked for, else at the right end. -/
def justify (c : Conversion) (t : Text) : Text :=
  if '-' ∈ c.flags then t ++ c.blanks t.length else c.blanks t.length ++ t

/-- A text cut to the precision and put into the width. -/
def text (c : Conversion) (t : Text) : Text :=
  c.justify
    (match c.precision with
    | some n => t.take n
    | none => t)

/-! #### Numbers -/

/-- A number put into the width, in parts: sign, mark of the base, digits.  Zeros go between mark
and digits, blanks before the sign or after the digits. -/
def number (c : Conversion) (negative : Bool) (mark digits : String) : Text :=
  let sign :=
    if negative then "-" else if '+' ∈ c.flags then "+" else if ' ' ∈ c.flags then " " else ""
  let length := sign.length + mark.length + digits.length
  if '-' ∉ c.flags ∧ '0' ∈ c.flags then
    sign ++ mark ++ String.ofList (List.replicate (c.width - length) '0') ++ digits
  else
    c.justify (sign ++ mark ++ digits)

/-- An integer in a base, with zeros in front of the digits up to the precision.  The mark of the
base is written in the other form only. -/
def integer (c : Conversion) (base : Nat) (mark : String) (n : Int) : Text :=
  let digits := String.ofList (Nat.toDigits base n.natAbs)
  let zeros := String.ofList (List.replicate (c.precision.getD 0 - digits.length) '0')
  let digits := if c.letter.isUpper then digits.toUpper else digits
  c.number (n < 0) (if '#' ∈ c.flags then mark else "") (zeros ++ digits)

/-- The magnitude of a double: scientific, positional or general notation by the letter, six places
or digits unless the precision says otherwise.  The other form always has a point. -/
def magnitude (c : Conversion) (style : Decimal.Style) (q : Decimal.Ratio) : String :=
  let places := c.precision.getD 6
  let other : Bool := '#' ∈ c.flags
  match c.letter.toLower with
  | 'e' =>
    let s := Decimal.significant places q
    Decimal.withPointKept other places s.coefficient ++ Decimal.exponentText style s.exponent
  | 'f' => Decimal.withPointKept other places (Decimal.atPlaces places q)
  | _ => Decimal.generalText style other places q

/-- A double. -/
def real (c : Conversion) (x : Float) : Text :=
  let style := if c.letter.isUpper then Decimal.Style.capital else Decimal.Style.small
  let (sign, digits) := Decimal.signed style (c.magnitude style) x
  c.number (sign = "-") "" digits

/-- What the conversion writes of a datum; nothing if the letter is none or asks for another kind
of datum. -/
def write? (c : Conversion) (d : Datum) : Option Text :=
  match c.letter with
  | 's' => some (c.text d.shown)
  | 'r' => some (c.text d.quoted)
  | 'a' => some (c.text (Text.asciiOnly d.quoted))
  | 'c' => d.symbol?.map fun s => c.justify (.singleton s)
  | 'd' | 'i' | 'u' => d.wholePart?.map (c.integer 10 "")
  | 'o' => d.integer?.map (c.integer 8 "0o")
  | 'x' => d.integer?.map (c.integer 16 "0x")
  | 'X' => d.integer?.map (c.integer 16 "0X")
  | 'e' | 'E' | 'f' | 'F' | 'g' | 'G' => d.double?.map c.real
  | _ => none

end Conversion

/-! ### Texts with conversions -/

/-- A piece of a text. -/
inductive Piece where
  | literal (s : Symbol)
  | conversion (field : Option Text) (c : Conversion)

/-- The name of a field up to the parenthesis that closes it, and the rest; `depth` parentheses
inside the name are open. -/
def readField? : Nat → List Symbol → Option (List Symbol × List Symbol)
  | _, [] => none
  | 0, .char ')' :: ss => some ([], ss)
  | depth + 1, .char ')' :: ss =>
    (readField? depth ss).map fun (name, rest) => (.char ')' :: name, rest)
  | depth, .char '(' :: ss =>
    (readField? (depth + 1) ss).map fun (name, rest) => (.char '(' :: name, rest)
  | depth, s :: ss => (readField? depth ss).map fun (name, rest) => (s :: name, rest)

/-- The pieces of a text, at most `fuel` of them. -/
def piecesFrom : Nat → List Symbol → Option (List Piece)
  | 0, _ => some []
  | _ + 1, [] => some []
  | fuel + 1, .char '%' :: .char '%' :: ss =>
    (piecesFrom fuel ss).map (.literal (.char '%') :: ·)
  | fuel + 1, .char '%' :: .char '(' :: ss => do
    let (field, rest) ← readField? 0 ss
    let (c, rest) ← Conversion.read? rest
    return .conversion (some ⟨field⟩) c :: (← piecesFrom fuel rest)
  | fuel + 1, .char '%' :: ss => do
    let (c, rest) ← Conversion.read? ss
    return .conversion none c :: (← piecesFrom fuel rest)
  | fuel + 1, s :: ss => (piecesFrom fuel ss).map (.literal s :: ·)

/-- The pieces of a text; nothing if a conversion in it has no end. -/
def pieces? (t : Text) : Option (List Piece) :=
  piecesFrom t.length t.symbols

/-- The texts of the pieces, filled in from arguments in order.  There must be as many arguments
as conversions, none of which names a field. -/
def takeInOrder : List Piece → List Datum → Option (List Text)
  | [], [] => some []
  | [], _ :: _ => none
  | .literal s :: ps, data => (takeInOrder ps data).map (.singleton s :: ·)
  | .conversion none c :: ps, d :: data => do
    let text ← c.write? d
    return text :: (← takeInOrder ps data)
  | .conversion _ _ :: _, _ => none

/-- The texts of the pieces, filled in from named fields.  Only the first conversion may go without
a name; it writes all that is at hand, `whole`. -/
def takeByName (fields : List (Text × Datum)) : Option Datum → List Piece → Option (List Text)
  | _, [] => some []
  | whole, .literal s :: ps => (takeByName fields whole ps).map (.singleton s :: ·)
  | _, .conversion (some name) c :: ps => do
    let text ← c.write? (← fields.lookup name)
    return text :: (← takeByName fields none ps)
  | some whole, .conversion none c :: ps => do
    let text ← c.write? whole
    return text :: (← takeByName fields none ps)
  | none, .conversion none _ :: _ => none

/-- A text without conversions stands for itself, if there are no arguments. -/
theorem takeInOrder_literals (ss : List Symbol) :
    takeInOrder (ss.map .literal) [] = some (ss.map Text.singleton) := by
  induction ss with
  | nil => rfl
  | cons s ss ih => simp [takeInOrder, ih]

/-- A text without conversions stands for itself, whatever the fields. -/
theorem takeByName_literals (fields : List (Text × Datum)) (whole : Option Datum)
    (ss : List Symbol) :
    takeByName fields whole (ss.map .literal) = some (ss.map Text.singleton) := by
  induction ss with
  | nil => simp [takeByName]
  | cons s ss ih => simp [takeByName, ih]

/-- A text filled in from arguments in order. -/
def fillInOrder? (arguments : List Datum) (text : Text) : Option Text := do
  return .join (← takeInOrder (← pieces? text) arguments)

/-- A text filled in from named fields. -/
def fillByName? (fields : List (Text × Datum)) (text : Text) : Option Text := do
  return .join (← takeByName fields (some (.record fields)) (← pieces? text))

end SelfDual.Journal
