import SelfDual.Decimal.Scientific
import SelfDual.Solve.Event
/-!
**The printed table of a solve.**

A row has six cells, each starting in a column that is a multiple of twenty: primal and dual
feasibility, duality gap, step, path parameter and objective.

Main definitions:

* `Report.titles`, `Report.columnWidth` — the layout;
* `Report.cell` — the text of a number in a cell;
* `Report.header`, `Report.row` — the lines;
* `Event.line?` — the line that an event prints.
-/

set_option autoImplicit false

namespace SelfDual.Report

/-- The titles of the columns. -/
def titles : List String :=
  ["Primal Feasibility", "Dual Feasibility", "Duality Gap", "Step", "Path Parameter", "Objective"]

/-- The distance between the starts of two columns. -/
def columnWidth : Nat := 20

/-- The least number of characters of a number in a cell. -/
def cellWidth : Nat := 11

/-- A number in a cell: six significant digits, with zeros in front up to the width of a cell. -/
def cell (x : Float) : String :=
  Decimal.padZeros cellWidth (Decimal.signed .capital (Decimal.scientificText .capital 5) x)

/-- The step in a cell; a dash where there is none. -/
def stepCell : Option Float → String
  | none => "-"
  | some alpha => cell alpha

/-- A text filled up with blanks to the width of a column. -/
def fill (s : String) : List Char :=
  s.toList ++ List.replicate (columnWidth - s.length) ' '

/-- A line of cells, without the blanks at its end. -/
def line (cells : List String) : String :=
  String.ofList (((cells.flatMap fill).reverse.dropWhile (· = ' ')).reverse)

/-- The line of the titles. -/
def header : String := line titles

/-- The cells of a row. -/
def cells (ind : Indicators Float) (alpha : Option Float) : List String :=
  [cell ind.rhoP, cell ind.rhoD, cell ind.rhoG, stepCell alpha, cell ind.rhoMu, cell ind.obj]

/-- The row of an iteration; the starting point has no step. -/
def row (ind : Indicators Float) (alpha : Option Float) : String :=
  line (cells ind alpha)

/-- A row has a cell for every title. -/
@[simp] theorem length_cells (ind : Indicators Float) (alpha : Option Float) :
    (cells ind alpha).length = titles.length := rfl

end SelfDual.Report

namespace SelfDual

/-- The line that an event prints. -/
def Event.line? : Event Float → Option String
  | header => some Report.header
  | row ind alpha => some (Report.row ind alpha)
  | _ => none

end SelfDual
