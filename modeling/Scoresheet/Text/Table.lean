import Scoresheet.Text.Fields
import Scoresheet.Text.Columns

/-!
# Tables

A table has a header and rows of cells, framed by lines. A column is as wide as its widest cell, and
a row as high as its highest; a cell may have several lines.

* `table` — the table as text.
-/

namespace Scoresheet.Text

/-- A text filled up with blanks on the right to a width. -/
def padded (width : Nat) (s : String) : String :=
  s ++ String.ofList (List.replicate (width - displayWidth s) ' ')

/-- The width of a cell: that of its widest line. -/
def cellWidth (lines : List String) : Nat :=
  (lines.map displayWidth).foldl max 0

/-- The wider of the columns of two rows. -/
def widerColumns (a b : List Nat) : List Nat :=
  List.zipWith max a b

/-- The widths of the columns of rows that have as many cells as the header. -/
def columnWidths (header : List (List String)) (rows : List (List (List String))) : List Nat :=
  rows.foldl (fun widths row => widerColumns widths (row.map cellWidth)) (header.map cellWidth)

/-- A line that fills the columns with a character. The columns have one blank on each side. -/
def ruler (edge fill crossing : Char) (widths : List Nat) : String :=
  let runs := widths.map fun width => List.replicate (width + 2) fill
  let inner := match runs with
    | [] => []
    | first :: others => first ++ others.flatMap (crossing :: ·)
  String.ofList (edge :: inner ++ [edge])

/-- One line of a row. -/
def rowLine (widths : List Nat) (parts : List String) : String :=
  "| " ++ " | ".intercalate (List.zipWith padded widths parts) ++ " |"

/-- The lines of a row. A cell with fewer lines than the highest ends in empty ones. -/
def rowLines (widths : List Nat) (row : List (List String)) : List String :=
  let height := (row.map List.length).foldl max 0
  (List.range height).map fun i => rowLine widths (row.map fun lines => lines.getD i "")

/-- **A table as text,** one string a line. -/
def tableLines (header : List String) (rows : List (List String)) : List String :=
  let header := header.map (stringFields '\n')
  let rows := rows.map fun row => row.map (stringFields '\n')
  let widths := columnWidths header rows
  -- A thin line divides the rows, a thick one the header from them.
  let body := (rows.map (rowLines widths)).intersperse [ruler '|' '-' '+' widths]
  ruler '+' '-' '+' widths :: rowLines widths header ++ [ruler '+' '=' '=' widths]
    ++ body.flatten ++ [ruler '+' '-' '+' widths]

end Scoresheet.Text
