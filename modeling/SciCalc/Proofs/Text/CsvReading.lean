import Mathlib
import SciCalc.Text.Csv

/-!
# Written records read back

A reader is followed through a written field. In a bare field it meets no
character that it would act upon, in a quoted one every quotation mark comes
twice; so behind the field it has the characters of the field and waits for the
comma or line end that finishes it. Field by field and record by record the
reader is back at its start with all that was written.
-/

namespace SciCalc.Text.Csv

variable {place : Place} {p : Progress} {field : List Char}

/-! ## One field -/

/-- A character without special meaning becomes part of a bare field. -/
theorem readFrom_plain (hplace : place = .start ∨ place = .bare) {c : Char}
    (hc : isSpecial c = false) (p : Progress) (rest : List Char) :
    readFrom place p (c :: rest) = readFrom .bare (p.addChar c) rest := by
  simp only [isSpecial, Bool.or_eq_false_iff, decide_eq_false_iff_not] at hc
  obtain ⟨⟨⟨hcomma, hquote⟩, hreturn⟩, hfeed⟩ := hc
  rcases hplace with rfl | rfl
  · simp [readFrom, hcomma, hquote, hreturn, hfeed]
  · simp [readFrom, hcomma, hquote, hreturn, hfeed]

theorem readFrom_bare (hplain : ∀ c ∈ field, isSpecial c = false)
    (p : Progress) (rest : List Char) :
    readFrom .bare p (field ++ rest) =
      readFrom .bare { p with field := field.reverse ++ p.field } rest := by
  induction field generalizing p with
  | nil => rfl
  | cons c field ih =>
      rw [List.forall_mem_cons] at hplain
      rw [List.cons_append, readFrom_plain (.inr rfl) hplain.1, ih hplain.2]
      simp [Progress.addChar]

/-- Doubled quotation marks leave a quoted field one by one, and the single
one behind them closes it. -/
theorem readFrom_quoted (field : List Char) (p : Progress)
    (rest : List Char) :
    readFrom .quoted p (double field ++ '"' :: rest) =
      readFrom .closing { p with field := field.reverse ++ p.field } rest := by
  induction field generalizing p with
  | nil => simp [double, readFrom]
  | cons c field ih =>
      by_cases hquote : c = '"'
      · subst hquote
        simp only [double, if_true, List.cons_append, readFrom]
        rw [ih]
        simp [Progress.addChar]
      · simp only [double, if_neg hquote, List.cons_append, readFrom]
        rw [ih]
        simp [Progress.addChar]

/-- Behind a written field the reader has the field and is not inside
quotation marks any more. -/
theorem exists_readFrom_writeField (field : List Char) (hp : p.field = [])
    (rest : List Char) :
    ∃ place, place ≠ .quoted ∧
      readFrom .start p (writeField field ++ rest) =
        readFrom place { p with field := field.reverse } rest := by
  unfold writeField
  split
  · refine ⟨.closing, Place.noConfusion, ?_⟩
    have hopened : readFrom .start p ('"' :: (double field ++ '"' :: rest)) =
        readFrom .quoted p (double field ++ '"' :: rest) := by
      simp [readFrom]
    rw [List.cons_append, List.append_assoc, List.singleton_append, hopened,
      readFrom_quoted, hp, List.append_nil]
  · next hany =>
    cases field with
    | nil =>
        refine ⟨.start, Place.noConfusion, ?_⟩
        rw [List.nil_append, List.reverse_nil, ← hp]
    | cons c field =>
        simp only [List.any_cons, Bool.or_eq_true, List.any_eq_true, not_or,
          Bool.not_eq_true, not_exists, not_and] at hany
        refine ⟨.bare, Place.noConfusion, ?_⟩
        rw [List.cons_append, readFrom_plain (.inl rfl) hany.1,
          readFrom_bare hany.2]
        simp [Progress.addChar, hp]

theorem readFrom_comma (hplace : place ≠ .quoted) (p : Progress)
    (rest : List Char) :
    readFrom place p (',' :: rest) = readFrom .start p.endField rest := by
  cases place with
  | quoted => exact absurd rfl hplace
  | _ => simp [readFrom]

theorem readFrom_feed (hplace : place ≠ .quoted) (p : Progress)
    (rest : List Char) :
    readFrom place p ('\n' :: rest) = readFrom .start p.endRecord rest := by
  cases place with
  | quoted => exact absurd rfl hplace
  | _ => simp [readFrom]

/-! ## Records -/

theorem writeRecord_singleton (field : List Char) :
    writeRecord [field] = writeField field ++ ['\n'] := by
  rw [writeRecord, List.map_singleton, List.intercalate_singleton]

theorem writeRecord_cons (field next : List Char)
    (others : List (List Char)) :
    writeRecord (field :: next :: others) =
      writeField field ++ ',' :: writeRecord (next :: others) := by
  simp [writeRecord, List.intercalate_cons_cons]

/-- A record with at least one field is read as one more record, behind the
fields that the reader already had. -/
theorem readFrom_writeRecord {fields : List (List Char)} (hne : fields ≠ [])
    (records : List (List (List Char))) (done : List (List Char))
    (rest : List Char) :
    readFrom .start ⟨records, done, []⟩ (writeRecord fields ++ rest) =
      readFrom .start ⟨(done.reverse ++ fields) :: records, [], []⟩ rest := by
  induction fields generalizing done with
  | nil => exact absurd rfl hne
  | cons field others ih =>
      cases others with
      | nil =>
          obtain ⟨place, hplace, hfield⟩ := exists_readFrom_writeField
            (p := ⟨records, done, []⟩) field rfl ('\n' :: rest)
          rw [writeRecord_singleton, List.append_assoc, List.singleton_append,
            hfield, readFrom_feed hplace]
          simp [Progress.endRecord, Progress.endField]
      | cons next others =>
          obtain ⟨place, hplace, hfield⟩ := exists_readFrom_writeField
            (p := ⟨records, done, []⟩) field rfl
            (',' :: (writeRecord (next :: others) ++ rest))
          have hdone : Progress.endField ⟨records, done, field.reverse⟩ =
              ⟨records, field :: done, []⟩ := by
            simp [Progress.endField]
          rw [writeRecord_cons, List.append_assoc, List.cons_append, hfield,
            readFrom_comma hplace, hdone, ih (List.cons_ne_nil _ _)]
          simp

theorem readFrom_write {records : List (List (List Char))}
    (hne : ∀ r ∈ records, r ≠ []) (done : List (List (List Char))) :
    readFrom .start ⟨done, [], []⟩ (write records) =
      some (done.reverse ++ records) := by
  induction records generalizing done with
  | nil => simp [write, readFrom, Progress.finish]
  | cons r others ih =>
      rw [List.forall_mem_cons] at hne
      have hwrite : write (r :: others) = writeRecord r ++ write others := by
        simp [write]
      rw [hwrite, readFrom_writeRecord hne.1, ih hne.2]
      simp

/-- Records with at least one field are read back as they were written. -/
theorem read_write {records : List (List (List Char))}
    (hne : ∀ r ∈ records, r ≠ []) : read (write records) = some records :=
  readFrom_write hne []

end SciCalc.Text.Csv
