import SelfDual.Journal.Conversion
import SelfDual.Journal.Level
import SelfDual.Text.Blank
import SelfDual.Text.Word
/-!
**Log records and their layouts.**

A record says which logger it comes from, how important it is and what happened; the last is a text
with conversions and their arguments.  A layout is a text with conversions such as `%(message)s` or
`%(levelno)03d`, which a record fills in.  A layout is taken only if it holds a well-formed field;
whether a record can fill in all of it shows when the record is written.

Main definitions:

* `Journal.Record`, `Journal.Record.message?` — a record and its message;
* `Journal.Record.fields` — the fields of a record;
* `Journal.hasField` — whether a text holds a well-formed field;
* `Journal.Layout` — a layout that has been taken, with `Layout.standard`;
* `Journal.Layout.render?` — the text of a record.
-/

set_option autoImplicit false

namespace SelfDual.Journal

/-! ### Records -/

/-- A log record. -/
structure Record where
  logger : Text
  level : Level
  /-- What happened, as a text with conversions. -/
  template : Value
  arguments : List Datum := []

namespace Record

/-- The message of a record.  Without arguments the template stands for itself. -/
def message? (r : Record) : Option Text :=
  if r.arguments.isEmpty then some r.template.display
  else fillInOrder? r.arguments r.template.display

/-- Without arguments the template is the message. -/
@[simp] theorem message?_of_no_arguments (logger : Text) (level : Level) (template : Value) :
    message? ⟨logger, level, template, []⟩ = some template.display := rfl

/-- The fields of a record with a given message.  A record keeps no error, no stack and neither
time nor thread; the place it comes from is known by the last part of its logger's name alone. -/
def fields (r : Record) (message : Text) : List (Text × Datum) :=
  let text (t : Text) : Datum := .value (.text t)
  let zero : Datum := .value (.whole 0)
  let instant : Datum := .value (.real 0)
  let place := text ⟨(r.logger.symbols.reverse.takeWhile (· ≠ .char '.')).reverse⟩
  [("name", text r.logger), ("msg", .value r.template), ("args", .group r.arguments),
    ("levelname", text r.level.name), ("levelno", .value r.level.given),
    ("pathname", place), ("filename", place), ("module", place),
    ("exc_info", .value .null), ("exc_text", .value .null), ("stack_info", .value .null),
    ("lineno", zero), ("funcName", place),
    ("created", instant), ("msecs", instant), ("relativeCreated", instant),
    ("thread", zero), ("threadName", text "MainThread"),
    ("processName", text "MainProcess"), ("process", zero),
    ("message", text message), ("asctime", text "1970-01-01 00:00:00,000")]

end Record

/-! ### Well-formed fields -/

/-- The letters that end a field: those of conversions in either case, with the three letters
beyond ASCII whose case leads to one of them. -/
def isConversionLetter (c : Char) : Bool :=
  c.toLower ∈ ['d', 'i', 'o', 'u', 'x', 'e', 'f', 'g', 'c', 'r', 's', 'a', '%'] ||
    c.toNat ∈ [0x130, 0x131, 0x17f]

/-- The digits of numbers in a field, of any script. -/
def isDigit (c : Char) : Bool := (Text.digitValue? c).isSome

/-- The text without a number or a star at its front. -/
def dropCount : List Symbol → List Symbol
  | .char '*' :: ss => ss
  | ss => ss.dropWhile (·.satisfies isDigit)

/-- Whether the rest of a field after its name is well formed. -/
def endsField (ss : List Symbol) : Bool :=
  let ss := dropCount (ss.dropWhile (·.satisfies isFlag))
  let ss :=
    match ss with
    | .char '.' :: .char '*' :: rest => rest
    | .char '.' :: d :: rest =>
      if d.satisfies isDigit then rest.dropWhile (·.satisfies isDigit) else ss
    | ss => ss
  match ss with
  | [] => false
  | s :: _ => s.satisfies isConversionLetter

/-- Whether a well-formed field starts here. -/
def startsField : List Symbol → Bool
  | .char '%' :: .char '(' :: ss =>
    match ss.takeWhile (·.satisfies Text.isWord), ss.dropWhile (·.satisfies Text.isWord) with
    | _ :: _, .char ')' :: rest => endsField rest
    | _, _ => false
  | _ => false

/-- Whether a well-formed field starts somewhere. -/
def hasField : List Symbol → Bool
  | [] => false
  | s :: ss => startsField (s :: ss) || hasField ss

/-! ### Layouts -/

/-- A text that holds a well-formed field. -/
structure Layout where
  text : Text
  hasField : Journal.hasField text.symbols = true

namespace Layout

/-- The layout that is used unless another is asked for. -/
def standard : Layout where
  text := "[%(levelname)s] %(name)s: %(message)s"
  hasField := by decide +kernel

/-- The layout that is asked for; nothing and the empty text mean the standard one. -/
def ofValue (v : Value) : Except SetupError Layout :=
  if !v.isTrue then .ok standard
  else
    match v with
    | .text t => if h : Journal.hasField t.symbols = true then .ok ⟨t, h⟩ else .error (.layout t)
    | v => .error (.layoutKind v)

/-- The text of a record; nothing if the record cannot fill in the layout. -/
def render? (l : Layout) (r : Record) : Option Text := do
  fillByName? (r.fields (← r.message?)) l.text

end Layout

end SelfDual.Journal
