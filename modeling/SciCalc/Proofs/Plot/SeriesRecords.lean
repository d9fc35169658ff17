import Mathlib
import SciCalc.Plot.SeriesCsv
import SciCalc.Proofs.Decimal.NumberText
import SciCalc.Proofs.Text.CsvReading

/-!
# The records of sampled curves

Whatever characters an expression has, a reader finds in the text of sampled
curves the header and one record for each sample, in order. Every number has a
text, so only a gap leaves the last field empty.
-/

namespace SciCalc

/-- No double is written with no characters. -/
theorem Decimal.shortestPositional_ne_nil (x : Float) :
    (shortestPositional x).toList ≠ [] := by
  have hbody : ∀ b : Binary, b.shortestPositional ≠ [] := by
    intro b
    unfold Binary.shortestPositional
    split
    · exact List.cons_ne_nil _ _
    · exact positional_ne_nil _
  unfold shortestPositional textOf
  split
  · decide
  · split <;> decide
  · next negative b _ =>
    rw [String.toList_ofList, withSign]
    split
    · exact List.cons_ne_nil _ _
    · exact hbody b

namespace Series

/-- The last field of a record: the digits of `y`, or nothing at a gap. -/
def ordinateField : Sample Float → List Char
  | .point _ y => (Decimal.shortestPositional y).toList
  | .gap _ => []

theorem ordinateField_eq_nil_iff (sample : Sample Float) :
    ordinateField sample = [] ↔ sample.isGap = true := by
  cases sample with
  | point x y =>
      exact iff_of_false (Decimal.shortestPositional_ne_nil y) Bool.noConfusion
  | gap x => exact iff_of_true rfl rfl

/-- The fields of one sample. -/
def recordFields (s : Series Float) (sample : Sample Float) :
    List (List Char) :=
  [s.expression.toList, s.color.toList,
    (Decimal.shortestPositional sample.abscissa).toList, ordinateField sample]

theorem csvRecords_eq (s : Series Float) :
    s.csvRecords = s.samples.map s.recordFields := by
  apply List.map_congr_left
  intro sample _
  cases sample <;> rfl

/-- Read back, the text of a list of series is a header and one record of four
fields for each sample, series after series and sample after sample. The last
field is empty for a gap and for nothing else. -/
theorem read_csv (all : List (Series Float)) :
    Text.Csv.read (csv all) =
      some (["expression".toList, "color".toList, "x".toList, "y".toList] ::
        all.flatMap fun s => s.samples.map fun sample =>
          [s.expression.toList, (palette[s.colorIndex]).toList,
            (Decimal.shortestPositional sample.abscissa).toList,
            ordinateField sample]) ∧
    ∀ sample, ordinateField sample = [] ↔ sample.isGap = true := by
  have hrecords : all.flatMap csvRecords =
      all.flatMap fun s => s.samples.map s.recordFields :=
    congrArg (fun f => all.flatMap f) (funext csvRecords_eq)
  refine ⟨?_, ordinateField_eq_nil_iff⟩
  rw [csv, hrecords]
  apply Text.Csv.read_write
  rw [List.forall_mem_cons]
  refine ⟨List.cons_ne_nil _ _, ?_⟩
  intro r hr
  obtain ⟨s, -, hr⟩ := List.mem_flatMap.1 hr
  obtain ⟨sample, -, rfl⟩ := List.mem_map.1 hr
  exact List.cons_ne_nil _ _

end Series

end SciCalc
