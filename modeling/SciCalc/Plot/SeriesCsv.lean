import SciCalc.Decimal.Layout
import SciCalc.Plot.Series
import SciCalc.Text.Csv

/-!
# Sampled curves as comma-separated records

A header, and one record for every sample of every series. The field for `y` is
empty at a gap.
-/

namespace SciCalc.Series

def csvHeader : List (List Char) :=
  ["expression".toList, "color".toList, "x".toList, "y".toList]

/-- The fields for the coordinates of a sample. -/
def coordinateFields : Sample Float → List (List Char)
  | .point x y =>
    [(Decimal.shortestPositional x).toList, (Decimal.shortestPositional y).toList]
  | .gap x => [(Decimal.shortestPositional x).toList, []]

def csvRecords (s : Series Float) : List (List (List Char)) :=
  s.samples.map fun sample =>
    s.expression.toList :: s.color.toList :: coordinateFields sample

/-- The text of a list of series. -/
def csv (all : List (Series Float)) : List Char :=
  Text.Csv.write (csvHeader :: all.flatMap csvRecords)

end SciCalc.Series
