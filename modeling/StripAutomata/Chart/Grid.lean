import StripAutomata.Chart.Basic
import StripAutomata.Text.Blank

/-!
# Charts as plain text

A chart is written as a grid with a line for each step.  A line begins with the number of its
step, set to the right in a column that the last number fills, and a bar.  A cell is written as
its names with commas between them, or as a point when it is empty, and fills its column, which is
as wide as the widest cell in it.  Blanks at the end of a line are left out.  A column has 16 bits
for its width: a chart with a wider one has no text (`Chart.text?`).

The rows need not be of one length: a column belongs to the rows that reach it.
-/

namespace StripAutomata.Grid

/-- The text of a cell. -/
def cellText (names : List String) : List Char :=
  if names.isEmpty then ['.'] else (",".intercalate names).toList

/-- The widths of columns, after a row more has been seen. -/
def widen : List Nat → List (List Char) → List Nat
  | widths, [] => widths
  | [], text :: texts => max 1 text.length :: widen [] texts
  | width :: widths, text :: texts => max width text.length :: widen widths texts

/-- The widths of the columns of a grid. -/
def columnWidths (rows : List (List (List Char))) : List Nat :=
  rows.foldl widen []

/-- A text with blanks after it, up to a width. -/
def padEnd (width : Nat) (cs : List Char) : List Char :=
  cs ++ List.replicate (width - cs.length) ' '

/-- A text with blanks before it, up to a width. -/
def padStart (width : Nat) (cs : List Char) : List Char :=
  List.replicate (width - cs.length) ' ' ++ cs

/-- The digits of a number. -/
def digits (n : Nat) : List Char := Nat.toDigits 10 n

/-- The line of a step. -/
def line (labelWidth : Nat) (widths : List Nat) (time : Nat) (row : List (List Char)) :
    List Char :=
  let cells := List.intercalate [' '] (widths.zipWith padEnd row)
  Text.trimEnd (padStart labelWidth (digits time) ++ [' ', '|', ' '] ++ cells)

/-- The lines of a grid. -/
def linesOf (rows : List (List (List Char))) : List (List Char) :=
  let labelWidth := (digits (rows.length - 1)).length
  let widths := columnWidths rows
  rows.zipIdx.map fun entry => line labelWidth widths entry.2 entry.1

/-- The largest width of a column that blanks can fill. -/
def widestColumn : Nat := 0xFFFF

end StripAutomata.Grid

namespace StripAutomata

open Grid in
/-- The chart as plain text. -/
def Chart.text (c : Chart) : String :=
  String.ofList ((linesOf (c.steps.map (·.map cellText))).flatMap (· ++ ['\n']))

open Grid in
/-- The chart as plain text, if no column is too wide for that. -/
def Chart.text? (c : Chart) : Option String :=
  if (columnWidths (c.steps.map (·.map cellText))).all (· ≤ widestColumn) then some c.text
  else none

end StripAutomata
