import SelfDual.Decimal.Digits
import SelfDual.Text.Blank
/-!
**Reading numbers.**

The text of a number is an optional sign, digits with an optional point and an optional exponent;
an underscore may stand between two digits, blanks may stand around the whole.  The words for
infinity and NaN are numbers too, in either case.

Main definitions:

* `Decimal.ofParts` — the double nearest to `± mantissa · 10 ^ exponent`;
* `Decimal.readDigits` — a run of digits with single underscores between them;
* `Decimal.readInt?` — the text of an integer;
* `Decimal.readFloat?` — the text of a number.
-/

set_option autoImplicit false

namespace SelfDual.Decimal

/-- The double nearest to `± mantissa · 10 ^ exponent`. Exponents far outside the range of the
doubles are decided by the number of digits alone. -/
def ofParts (negative : Bool) (mantissa : Nat) (exponent : Int) : Float :=
  let top := exponent + digitCount mantissa
  if mantissa = 0 ∨ top < -330 then nearest negative ⟨0, 1⟩
  else if 310 < top then nearest negative ⟨Nat.pow 2 1024, 1⟩
  else nearest negative (.ofScaled mantissa 10 exponent)

/-- A run of digits at the front: its value, its length and the rest.  An underscore is passed
over where a digit follows it and one stands before it. -/
def readDigits : Nat → Nat → List Char → Nat × Nat × List Char
  | value, count, [] => (value, count, [])
  | value, count, c :: cs =>
    match Text.digitValue? c with
    | some d => readDigits (10 * value + d) (count + 1) cs
    | none =>
      match cs with
      | [] => (value, count, [c])
      | c' :: cs' =>
        match c = '_' && count != 0, Text.digitValue? c' with
        | true, some d => readDigits (10 * value + d) (count + 1) cs'
        | _, _ => (value, count, c :: c' :: cs')

/-- An optional sign at the front: whether it is a minus, and the rest. -/
def readSign : List Char → Bool × List Char
  | '-' :: cs => (true, cs)
  | '+' :: cs => (false, cs)
  | cs => (false, cs)

/-- The exponent part, if the text ends with it or there is none. -/
def readExponent? : List Char → Option Int
  | [] => some 0
  | c :: cs =>
    if c = 'e' || c = 'E' then
      let (negative, cs) := readSign cs
      match readDigits 0 0 cs with
      | (value, _ + 1, []) => some (if negative then -(value : Int) else value)
      | (_, _, _) => none
    else none

/-- The integer that a text denotes. -/
def readInt? (s : String) : Option Int :=
  let (negative, cs) := readSign (Text.trimBlanks s.toList)
  match readDigits 0 0 cs with
  | (value, _ + 1, []) => some (if negative then -(value : Int) else value)
  | _ => none

/-- The number that an unsigned text denotes, given the sign. -/
def readMagnitude? (negative : Bool) (cs : List Char) : Option Float :=
  let word := String.ofList (cs.map Char.toLower)
  if word = "inf" || word = "infinity" then some (nearest negative ⟨Nat.pow 2 1024, 1⟩)
  else if word = "nan" then some (0.0 / 0.0)
  else
    let (whole, wholeCount, rest) := readDigits 0 0 cs
    let (mantissa, places, rest) :=
      match rest with
      | '.' :: rest =>
        let (fraction, count, rest') := readDigits 0 0 rest
        (whole * Nat.pow 10 count + fraction, count, rest')
      | rest => (whole, 0, rest)
    if wholeCount + places = 0 then none
    else (readExponent? rest).map fun e => ofParts negative mantissa (e - places)

/-- The number that a text denotes. -/
def readFloat? (s : String) : Option Float :=
  let (negative, cs) := readSign (Text.trimBlanks s.toList)
  readMagnitude? negative cs

end SelfDual.Decimal
