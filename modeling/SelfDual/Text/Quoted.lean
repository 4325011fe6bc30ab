import SelfDual.Text.Basic
import SelfDual.Text.Printable
/-!
**Quoted texts.**

A text is quoted by single quotes, or by double quotes if it holds a single quote and no double
one.  Inside, the backslash and the quote are escaped, and so is every symbol that is not a
printable character.  What comes out is a string, whatever the text.

Main definitions:

* `Text.quoteFor` — the quote a text is put in;
* `Text.escape` — what a symbol becomes inside;
* `Text.quoted` — the quoted text;
* `Text.asciiOnly` — a string with all characters beyond ASCII escaped.
-/

set_option autoImplicit false

namespace SelfDual.Text

/-- The quote that a text is put in. -/
def quoteFor (t : Text) : Char :=
  if t.symbols.contains (.char '\'') && !t.symbols.contains (.char '"') then '"' else '\''

/-- `n` in hexadecimal with `width` digits at least. -/
def hex (width n : Nat) : String :=
  let digits := Nat.toDigits 16 n
  String.ofList (List.replicate (width - digits.length) '0' ++ digits)

/-- The escape of a code point, which has two, four or eight digits. -/
def codeEscape (n : Nat) : String :=
  if n ≤ 0xff then "\\x" ++ hex 2 n
  else if n ≤ 0xffff then "\\u" ++ hex 4 n
  else "\\U" ++ hex 8 n

/-- What a symbol becomes between quotes. -/
def escape (quote : Char) : Symbol → String
  | .half k => codeEscape (Symbol.half k).code
  | .char c =>
    if c = quote || c = '\\' then "\\" ++ c.toString
    else if c = '\n' then "\\n"
    else if c = '\r' then "\\r"
    else if c = '\t' then "\\t"
    else if isPrintable c then c.toString
    else codeEscape c.toNat

/-- The text between its quotes, with escapes. -/
def quoted (t : Text) : String :=
  let quote := quoteFor t
  quote.toString ++ String.join (t.symbols.map (escape quote)) ++ quote.toString

/-- The string with every character beyond ASCII escaped by its code point. -/
def asciiOnly (s : String) : String :=
  String.join (s.toList.map fun c => if c.toNat < 0x80 then c.toString else codeEscape c.toNat)

end SelfDual.Text
