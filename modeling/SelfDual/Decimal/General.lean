import SelfDual.Decimal.Scientific
/-!
**General notation.**

A number with a given number of significant digits, positional unless its exponent of ten is small
or reaches that number, and then scientific.  The zeros at the end of its fraction are left out
unless all digits are asked for.

Main definitions:

* `Decimal.withPointKept` — digits with a point, one without places if asked for;
* `Decimal.dropFractionZeros` — a text without the zeros at the end of its fraction;
* `Decimal.generalText` — general notation.
-/

set_option autoImplicit false

namespace SelfDual.Decimal

/-- The digits of `n` with a point before the last `places` of them; if `keep`, there is a point
even if there are no places. -/
def withPointKept (keep : Bool) (places n : Nat) : String :=
  withPoint places n ++ if keep && places == 0 then "." else ""

@[simp] theorem withPointKept_false (places n : Nat) :
    withPointKept false places n = withPoint places n := by
  simp [withPointKept]

/-- The digits of `n` with a point before the last `places` of them, without the zeros at the end
of the fraction and without the point if nothing follows it. -/
def dropFractionZeros (places n : Nat) : String :=
  let text := withPoint places n
  if places = 0 then text
  else
    let kept := text.toList.reverse.dropWhile (· = '0')
    String.ofList (kept.dropWhile (· = '.')).reverse

/-- General notation of the magnitude `q` with `digits` significant digits, one at least; all of
them and the point are kept if `keep`. -/
def generalText (style : Style) (keep : Bool) (digits : Nat) (q : Ratio) : String :=
  let digits := max 1 digits
  let s := significant (digits - 1) q
  let write := if keep then withPointKept true else dropFractionZeros
  if s.exponent < -4 ∨ (digits : Int) ≤ s.exponent then
    write (digits - 1) s.coefficient ++ exponentText style s.exponent
  else
    write ((digits : Int) - 1 - s.exponent).toNat s.coefficient

end SelfDual.Decimal
