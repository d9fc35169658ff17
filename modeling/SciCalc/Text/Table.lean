import SciCalc.Text.Lines
import SciCalc.Text.Width

/-!
# Tables

Rows of cells in a box with rounded corners and a rule between any two rows. Cells
are aligned to the left and padded by a blank on both sides, and every column is as
wide as its widest cell. A cell may hold several lines.
-/

namespace SciCalc.Text

/-- The lines of a cell. -/
abbrev Cell : Type := List (List Char)

namespace Table

def cellWidth (cell : Cell) : Nat :=
  (cell.map width).foldl max 0

/-- The widths of the columns of a table whose rows are equally long. -/
def columnWidths : List (List Cell) → List Nat
  | [] => []
  | [row] => row.map cellWidth
  | row :: rows => List.zipWith max (row.map cellWidth) (columnWidths rows)

/-- A rule across the table, with the marks at its left end, between columns, and at
its right end. -/
def rule (left between right : Char) (widths : List Nat) : List Char :=
  left ::
    ([between].intercalate (widths.map fun w => List.replicate (w + 2) '─') ++ [right])

/-- A text filled up with blanks. -/
def pad (w : Nat) (text : List Char) : List Char :=
  text ++ List.replicate (w - width text) ' '

/-- One line through all cells of a row; cells that have no such line are blank
there. -/
def rowLine (widths : List Nat) (row : List Cell) (k : Nat) : List Char :=
  let pieces :=
    List.zipWith (fun w cell => ' ' :: (pad w (cell.getD k []) ++ [' '])) widths row
  '│' :: (['│'].intercalate pieces ++ ['│'])

/-- The lines of a row, as many as its highest cell has. -/
def rowLines (widths : List Nat) (row : List Cell) : List (List Char) :=
  let height := (row.map List.length).foldl max 0
  (List.range height).map (rowLine widths row)

/-- The lines of the table. -/
def allLines (rows : List (List Cell)) : List (List Char) :=
  let widths := columnWidths rows
  let inner := [rule '├' '┼' '┤' widths].intercalate (rows.map (rowLines widths))
  rule '╭' '┬' '╮' widths :: (inner ++ [rule '╰' '┴' '╯' widths])

/-- The table of rows of texts. -/
def render (rows : List (List (List Char))) : List Char :=
  joinLines (allLines (rows.map fun row => row.map splitAtFeeds))

end Table

end SciCalc.Text
