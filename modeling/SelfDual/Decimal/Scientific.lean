import SelfDual.Decimal.Digits
/-!
**Scientific and positional notation.**

Texts of doubles with a given number of digits after the point: scientific (`1.50e-03`) and
positional (`0.0015`).  The value written is the exact value of the double, rounded once.

Main definitions:

* `Decimal.digitsText` — the digits of a natural number, padded with zeros on the left;
* `Decimal.Style` — the letter of the exponent and the words for what is not a finite number;
* `Decimal.scientific` — scientific notation;
* `Decimal.positional` — positional notation;
* `Decimal.padZeros` — zeros put between the sign and the digits, up to a width.
-/

set_option autoImplicit false

namespace SelfDual.Decimal

/-- The decimal digits of `n`, with zeros in front up to `width` characters. -/
def digitsText (width n : Nat) : String :=
  let text := n.repr
  String.ofList (List.replicate (width - text.length) '0') ++ text

/-- The sign of a number as written: nothing for a nonnegative one. -/
def signText (negative : Bool) : String :=
  if negative then "-" else ""

/-- How a scientific notation spells the exponent's letter, an infinity and a NaN. -/
structure Style where
  letter : String
  infinity : String
  nan : String

/-- Small letters. -/
def Style.small : Style := ⟨"e", "inf", "nan"⟩

/-- Capital letters. -/
def Style.capital : Style := ⟨"E", "INF", "NAN"⟩

/-- The exponent part: a sign and at least two digits. -/
def exponentText (style : Style) (e : Int) : String :=
  style.letter ++ (if e < 0 then "-" else "+") ++ digitsText 2 e.natAbs

/-- The digits of `n` with a point before the last `places` of them; no point if there are no
places. -/
def withPoint (places n : Nat) : String :=
  let unit := Nat.pow 10 places
  let whole := (n / unit).repr
  if places = 0 then whole else whole ++ "." ++ digitsText places (n % unit)

/-- Scientific notation of the magnitude `q` with `places` digits after the point. -/
def scientificText (style : Style) (places : Nat) (q : Ratio) : String :=
  let s := significant places q
  withPoint places s.coefficient ++ exponentText style s.exponent

/-- Sign and unsigned text of a double, the finite ones written by `write`. -/
def signed (style : Style) (write : Ratio → String) (x : Float) : String × String :=
  match Binary.ofFloat x with
  | .nan => ("", style.nan)
  | .infinite negative => (signText negative, style.infinity)
  | .finite negative m e => (signText negative, write (.ofScaled m 2 e))

/-- Scientific notation of a double with `places` digits after the point. -/
def scientific (style : Style) (places : Nat) (x : Float) : String :=
  let (sign, text) := signed style (scientificText style places) x
  sign ++ text

/-- Positional notation of a double with `places` digits after the point. -/
def positional (style : Style) (places : Nat) (x : Float) : String :=
  let (sign, text) := signed style (fun q => withPoint places (atPlaces places q)) x
  sign ++ text

/-- A sign and a text with zeros between them, up to `width` characters in all. -/
def padZeros (width : Nat) (parts : String × String) : String :=
  let (sign, text) := parts
  sign ++ String.ofList (List.replicate (width - sign.length - text.length) '0') ++ text

end SelfDual.Decimal
