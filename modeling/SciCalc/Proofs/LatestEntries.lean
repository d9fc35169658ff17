import Mathlib
import SciCalc.History

/-!
# The latest entries

A history shows what has been recorded since it was cleared for the last time,
the newest entry first, as far as the first ten. Whatever was recorded before,
or has been dropped, leaves no trace.
-/

namespace SciCalc

/-- What is done to a history. -/
inductive HistoryEdit where
  | push (entry : HistoryEntry)
  | clear

namespace HistoryEdit

/-- The entry that is recorded. -/
def entry? : HistoryEdit → Option HistoryEntry
  | push entry => some entry
  | clear => none

/-- The entries recorded since the last clearing, the oldest one first. -/
def sinceClear (edits : List HistoryEdit) : List HistoryEntry :=
  (edits.rtakeWhile fun edit => edit.entry?.isSome).filterMap entry?

theorem sinceClear_concat_push (edits : List HistoryEdit)
    (entry : HistoryEntry) :
    sinceClear (edits ++ [push entry]) = sinceClear edits ++ [entry] := by
  rw [sinceClear, List.rtakeWhile_concat_pos _ _ _ rfl, List.filterMap_append]
  rfl

theorem sinceClear_concat_clear (edits : List HistoryEdit) :
    sinceClear (edits ++ [clear]) = [] := by
  rw [sinceClear, List.rtakeWhile_concat_neg _ _ _ (by decide)]
  rfl

end HistoryEdit

namespace History

open HistoryEdit

def edited (h : History) : HistoryEdit → History
  | .push entry => h.push entry
  | .clear => h.clear

/-- A new history after edits. -/
def after (edits : List HistoryEdit) : History :=
  edits.foldl edited empty

/-- The history shows the latest of these entries, the newest first. -/
def Shows (h : History) (entries : List HistoryEntry) : Prop :=
  h.entries = entries.reverse.take historyCapacity

namespace Shows

variable {h : History} {entries : List HistoryEntry}

/-- An entry that was dropped before would be dropped now. -/
theorem push (hshows : h.Shows entries) (entry : HistoryEntry) :
    (h.push entry).Shows (entries ++ [entry]) := by
  have hdropped (newer : List HistoryEntry) :
      (entry :: newer.take historyCapacity).take historyCapacity =
        (entry :: newer).take historyCapacity := by
    rw [List.take_cons (by decide), List.take_cons (by decide), List.take_take,
      min_eq_left (by decide)]
  rw [Shows, entries_push, hshows, hdropped, List.reverse_append,
    List.reverse_singleton, List.singleton_append]

theorem length_eq (hshows : h.Shows entries) :
    h.length = min historyCapacity entries.length := by
  rw [length, hshows, List.length_take, List.length_reverse]

theorem get?_eq (hshows : h.Shows entries) (index : ℕ) :
    h.get? index =
      if index < h.length then entries.reverse[index]? else none := by
  by_cases hindex : index < h.length
  · have hcapacity : index < historyCapacity :=
      hindex.trans_le h.length_le
    rw [if_pos hindex, get?, hshows, List.getElem?_take_of_lt hcapacity]
  · rw [if_neg hindex, get?, List.getElem?_eq_none (not_lt.1 hindex)]

end Shows

theorem shows_after (edits : List HistoryEdit) :
    (after edits).Shows (sinceClear edits) := by
  induction edits using List.reverseRecOn with
  | nil => rfl
  | append_singleton edits edit ih =>
      rw [after, List.foldl_concat]
      cases edit with
      | push entry =>
          rw [sinceClear_concat_push]
          exact ih.push entry
      | clear =>
          rw [sinceClear_concat_clear]
          rfl

theorem get?_eq_none_iff (h : History) (index : ℕ) :
    h.get? index = none ↔ h.length ≤ index :=
  List.getElem?_eq_none_iff

end History

/-- After any recording and clearing a history shows the entries since the last
clearing from the newest on, at most ten of them and as they were recorded. -/
theorem history_shows_latest (edits : List HistoryEdit) :
    (History.after edits).entries =
      (HistoryEdit.sinceClear edits).reverse.take 10 ∧
    (History.after edits).length =
      min 10 (HistoryEdit.sinceClear edits).length ∧
    ∀ index,
      (History.after edits).get? index =
        (if index < (History.after edits).length then
          (HistoryEdit.sinceClear edits).reverse[index]? else none) ∧
      (History.after edits).expression? index =
        (if index < (History.after edits).length then
          ((HistoryEdit.sinceClear edits).map
            HistoryEntry.expression).reverse[index]? else none) ∧
      ((History.after edits).get? index = none ↔
        (History.after edits).length ≤ index) ∧
      ((History.after edits).expression? index = none ↔
        (History.after edits).length ≤ index) := by
  have hshows := History.shows_after edits
  refine ⟨hshows, hshows.length_eq, fun index => ⟨hshows.get?_eq index, ?_,
    History.get?_eq_none_iff _ index, ?_⟩⟩
  · rw [History.expression?, hshows.get?_eq, ← List.map_reverse,
      List.getElem?_map, apply_ite (Option.map HistoryEntry.expression),
      Option.map_none]
  · rw [History.expression?, Option.map_eq_none_iff]
    exact History.get?_eq_none_iff _ index

example (first second third : HistoryEntry) :
    (History.after [.push first, .clear, .push second, .push third]).entries =
      [third, second] :=
  rfl

end SciCalc
