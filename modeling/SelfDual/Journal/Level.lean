import SelfDual.Value
/-!
**Levels of log records.**

A level is an integer; some integers have names.  A level is asked for by its number or by its
name in any case; a name that is not known means a warning.

Main definitions:

* `Journal.Level` — a level, as it was given;
* `Journal.Level.name` — what a level is called in a record;
* `Journal.Level.ofValue` — the level that is asked for;
* `Journal.SetupError` — why a level or a layout is refused.
-/

set_option autoImplicit false

namespace SelfDual.Journal

/-- Why a level or a layout is refused. -/
inductive SetupError where
  /-- A level that is no integer. -/
  | levelKind (v : Value)
  /-- A level name that stands for something else. -/
  | levelName (t : Text)
  /-- A layout that is no text. -/
  | layoutKind (v : Value)
  /-- A layout without a well-formed field. -/
  | layout (t : Text)

/-- The wording of a refusal. -/
def SetupError.message : SetupError → String
  | levelKind v => "not a level: " ++ v.quote
  | levelName t => "not a level: " ++ t.quoted
  | layoutKind v => "not a layout: " ++ v.quote
  | layout t => "not a layout: " ++ t.quoted

/-- A level; one given as a truth value is kept as such. -/
inductive Level where
  | number (n : Int)
  | truth (b : Bool)
  deriving DecidableEq, Repr

namespace Level

/-- The number of a level. -/
def value : Level → Int
  | number n => n
  | truth b => if b then 1 else 0

/-- The level as it was given. -/
def given : Level → Value
  | number n => .whole n
  | truth b => .truth b

/-- The level that a value is, without asking for names. -/
def ofGiven? : Value → Option Level
  | .whole n => some (number n)
  | .truth b => some (truth b)
  | _ => none

/-- A level is what it was given as. -/
@[simp] theorem ofGiven?_given (level : Level) : ofGiven? level.given = some level := by
  cases level <;> rfl

/-- The level of a warning. -/
def warning : Level := number 30

/-- The names that levels can be asked for by. -/
def names : List (String × Int) :=
  [("CRITICAL", 50), ("FATAL", 50), ("ERROR", 40), ("WARNING", 30), ("WARN", 30), ("INFO", 20),
    ("DEBUG", 10), ("NOTSET", 0)]

/-- What a level is called in a record. -/
def name (level : Level) : String :=
  match names.find? fun (_, n) => n = level.value with
  | some (name, _) => name
  | none => "Level " ++ level.given.quote

/-- The capitals of a letter.  Beside those of ASCII, the letters whose capitals are ASCII letters
of level names. -/
def capitals (c : Char) : String :=
  if c.toNat = 0x131 then "I"
  else if c.toNat = 0x17f then "S"
  else if c.toNat = 0xfb05 || c.toNat = 0xfb06 then "ST"
  else c.toUpper.toString

/-- The level of a name.  Two names belong to other things than levels. -/
def ofName (t : Text) : Except SetupError Level :=
  let capital := t.string?.map fun s => String.join (s.toList.map capitals)
  if capital = some "BASIC_FORMAT" then .error (.levelName t)
  else if capital = some "_STYLES" then .error (.levelKind (.text t))
  else
    match capital.bind fun name => names.lookup name with
    | some n => .ok (number n)
    | none => .ok warning

/-- The level that is asked for. -/
def ofValue : Value → Except SetupError Level
  | .text t => ofName t
  | v =>
    match ofGiven? v with
    | some level => .ok level
    | none => .error (.levelKind v)

end Level

end SelfDual.Journal
