import Mathlib
import SciCalc.Text.Lines

/-!
# Lines of a text

A text is its first line, a line feed and the lines behind it, or one line
without a line feed. Where every carriage return belongs to a line end no line
has one, and lines that are joined are cut at the same places again.
-/

namespace SciCalc.Text

variable {line rest text : List Char}

/-- Every carriage return stands directly in front of a line feed. -/
def ReturnsEndLines (text : List Char) : Prop :=
  ∀ before after, text = before ++ '\r' :: after →
    ∃ rest, after = '\n' :: rest

/-- A line without the characters that end lines. -/
def Unbroken (line : List Char) : Prop :=
  '\n' ∉ line ∧ '\r' ∉ line

theorem splitAtFeeds_of_not_mem (h : '\n' ∉ line) : splitAtFeeds line = [line] := by
  unfold splitAtFeeds
  induction line with
  | nil => rfl
  | cons c line ih =>
      rw [List.mem_cons, not_or] at h
      rw [splitAtMark, if_neg (Ne.symm h.1), ih h.2]

theorem splitAtFeeds_append (h : '\n' ∉ line) (rest : List Char) :
    splitAtFeeds (line ++ '\n' :: rest) = line :: splitAtFeeds rest := by
  unfold splitAtFeeds
  induction line with
  | nil => simp [splitAtMark]
  | cons c line ih =>
      rw [List.mem_cons, not_or] at h
      rw [List.cons_append, splitAtMark, if_neg (Ne.symm h.1), ih h.2]

theorem lines_of_not_mem (h : '\n' ∉ line) (hne : line ≠ []) :
    lines line = [line] := by
  cases line with
  | nil => exact absurd rfl hne
  | cons c line => simp [lines, splitAtFeeds_of_not_mem h]

theorem lines_append_feed (h : '\n' ∉ line) (rest : List Char) :
    lines (line ++ '\n' :: rest) = dropReturn line :: lines rest := by
  have hne := splitAtFeeds_ne_nil rest
  rw [lines, lines, splitAtFeeds_append h]
  simp only [List.dropLast_cons_of_ne_nil hne, List.getLast?_cons_of_ne_nil hne]
  split <;> rfl

/-- A text is one line, or a first line and the text behind its line feed. -/
@[elab_as_elim]
theorem line_induction {motive : List Char → Prop}
    (last : ∀ line, '\n' ∉ line → motive line)
    (first : ∀ line rest, '\n' ∉ line → motive rest →
      motive (line ++ '\n' :: rest))
    (text : List Char) : motive text := by
  by_cases hfeed : '\n' ∈ text
  · obtain ⟨line, rest, rfl, hline⟩ := List.eq_append_cons_of_mem hfeed
    exact first line rest hline (line_induction last first rest)
  · exact last text hfeed
termination_by text.length
decreasing_by
  simp only [*, List.length_append, List.length_cons]
  omega

/-- The text ends where a line ends. -/
def IsWhole (text : List Char) : Prop :=
  ∀ c ∈ text.getLast?, c = '\n'

theorem isWhole_concat (text : List Char) : IsWhole (text ++ ['\n']) := by
  intro c hc
  simpa [eq_comm] using hc

/-- The lines of a text behind whole lines are cut as if it stood alone. -/
theorem lines_append (h : IsWhole text) (rest : List Char) :
    lines (text ++ rest) = lines text ++ lines rest := by
  induction text using line_induction with
  | last line hfeed =>
      cases hlast : line.getLast? with
      | none =>
          rw [List.getLast?_eq_none_iff] at hlast
          subst hlast
          rfl
      | some c =>
          obtain rfl := h c hlast
          exact absurd (List.mem_of_getLast? hlast) hfeed
  | first line others hfeed ih =>
      have hothers : IsWhole others := by
        intro c hc
        apply h
        cases others with
        | nil => cases hc
        | cons d others => simpa using hc
      rw [List.append_assoc, List.cons_append, lines_append_feed hfeed,
        lines_append_feed hfeed, ih hothers]
      rfl

theorem dropReturn_of_not_mem (h : '\r' ∉ line) : dropReturn line = line := by
  rw [dropReturn, if_neg]
  intro hlast
  exact h (List.mem_of_getLast? hlast)

/-! ## Carriage returns -/

theorem returnsEndLines_nil : ReturnsEndLines [] := by
  intro before after h
  simp at h

theorem returnsEndLines_cons_iff {c : Char} :
    ReturnsEndLines (c :: text) ↔
      (c = '\r' → text.head? = some '\n') ∧ ReturnsEndLines text := by
  constructor
  · intro h
    refine ⟨?_, ?_⟩
    · rintro rfl
      obtain ⟨rest, rfl⟩ := h [] text rfl
      rfl
    · rintro before after rfl
      exact h (c :: before) after rfl
  · rintro ⟨hfirst, hrest⟩ before after htext
    cases before with
    | nil =>
        cases htext
        exact List.head?_eq_some_iff.1 (hfirst rfl)
    | cons d before =>
        cases htext
        exact hrest before after rfl

namespace ReturnsEndLines

theorem append {text' : List Char} (h : ReturnsEndLines text)
    (h' : ReturnsEndLines text') : ReturnsEndLines (text ++ text') := by
  induction text with
  | nil => exact h'
  | cons c text ih =>
      obtain ⟨hfirst, hrest⟩ := returnsEndLines_cons_iff.1 h
      rw [List.cons_append, returnsEndLines_cons_iff]
      refine ⟨fun hc => ?_, ih hrest⟩
      rw [List.head?_append, hfirst hc]
      rfl

theorem feed (h : ReturnsEndLines text) : ReturnsEndLines ('\n' :: text) :=
  returnsEndLines_cons_iff.2 ⟨fun hreturn => absurd hreturn (by decide), h⟩

/-- The text in front of a line is of the kind. -/
theorem ahead (hwhole : IsWhole text) (h : ReturnsEndLines (text ++ rest)) :
    ReturnsEndLines text := by
  rintro before after rfl
  obtain ⟨others, hothers⟩ := h before (after ++ rest) (by simp)
  cases after with
  | nil => exact absurd (hwhole '\r' (by simp)) (by decide)
  | cons c after =>
      cases hothers
      exact ⟨after, rfl⟩

/-- The text behind a line feed is of the kind. -/
theorem behind {before : List Char} (h : ReturnsEndLines (before ++ rest)) :
    ReturnsEndLines rest := by
  rintro before' after rfl
  exact h (before ++ before') after (by simp)

theorem not_mem (h : ReturnsEndLines text) (hfeed : '\n' ∉ text) :
    '\r' ∉ text := by
  intro hreturn
  obtain ⟨before, after, rfl⟩ := List.append_of_mem hreturn
  obtain ⟨rest, rfl⟩ := h before after rfl
  simp at hfeed

/-- In a line that a line feed ends the carriage return is the last one. -/
theorem unbroken_dropReturn (h : ReturnsEndLines (line ++ '\n' :: rest))
    (hfeed : '\n' ∉ line) : Unbroken (dropReturn line) := by
  by_cases hreturn : '\r' ∈ line
  · obtain ⟨before, after, rfl, hbefore⟩ := List.eq_append_cons_of_mem hreturn
    obtain ⟨others, hothers⟩ := h before (after ++ '\n' :: rest) (by simp)
    -- what follows the carriage return is the line feed behind the line
    cases after with
    | nil =>
        rw [dropReturn, if_pos (by simp), List.dropLast_concat]
        exact ⟨fun hmem => hfeed (by simp [hmem]), hbefore⟩
    | cons c after =>
        cases hothers
        simp at hfeed
  · rw [dropReturn_of_not_mem hreturn]
    exact ⟨hfeed, hreturn⟩

theorem unbroken_of_mem_lines (h : ReturnsEndLines text) :
    ∀ line ∈ lines text, Unbroken line := by
  induction text using line_induction with
  | last line hfeed =>
      intro line' hline
      by_cases hnil : line = []
      · subst hnil
        cases hline
      · rw [lines_of_not_mem hfeed hnil, List.mem_singleton] at hline
        subst hline
        exact ⟨hfeed, h.not_mem hfeed⟩
  | first line rest hfeed ih =>
      rw [lines_append_feed hfeed, List.forall_mem_cons]
      refine ⟨h.unbroken_dropReturn hfeed, ih ?_⟩
      rw [List.append_cons] at h
      exact h.behind

end ReturnsEndLines

/-! ## Lines joined again -/

theorem joinLines_cons (line : List Char) (next : List Char)
    (others : List (List Char)) :
    joinLines (line :: next :: others) =
      line ++ '\n' :: joinLines (next :: others) := by
  simp [joinLines, List.intercalate]

/-- Lines that are not empty are found again where they have been joined. -/
theorem lines_joinLines {ls : List (List Char)}
    (hunbroken : ∀ line ∈ ls, Unbroken line) (hne : ∀ line ∈ ls, line ≠ []) :
    lines (joinLines ls) = ls := by
  induction ls with
  | nil => rfl
  | cons line others ih =>
      rw [List.forall_mem_cons] at hunbroken hne
      cases others with
      | nil =>
          have hline : joinLines [line] = line := by
            simp [joinLines, List.intercalate]
          rw [hline, lines_of_not_mem hunbroken.1.1 hne.1]
      | cons next others =>
          rw [joinLines_cons, lines_append_feed hunbroken.1.1,
            dropReturn_of_not_mem hunbroken.1.2, ih hunbroken.2 hne.2]

end SciCalc.Text
