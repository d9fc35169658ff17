import SciCalc.Mat.Basic
import SciCalc.Text.Csv
import SciCalc.Text.Table

/-!
# Showing matrices

A matrix is shown as bracketed rows, as a table of cells with two decimals, or as
comma-separated records.
-/

namespace SciCalc.Mat

/-- Each row in brackets on a line of its own. -/
def text (a : Mat Float) : String :=
  String.join (a.toRows.map fun row =>
    "[" ++ ", ".intercalate (row.map Decimal.shortestPositional) ++ "]\n")

/-- The cells with two decimals. -/
def cellTexts (a : Mat Float) : List (List String) :=
  a.toRows.map fun row => row.map (Decimal.fixed 2)

def table (a : Mat Float) : String :=
  String.ofList (Text.Table.render (a.cellTexts.map fun row => row.map String.toList))

/-- A header `c0, c1, …` and a record for every row. -/
def csv (a : Mat Float) : String :=
  let header := (List.range a.cols).map fun j => ("c" ++ toString j).toList
  let rows := a.toRows.map fun row =>
    row.map fun x => (Decimal.shortestPositional x).toList
  String.ofList (Text.Csv.write (header :: rows))

end SciCalc.Mat
