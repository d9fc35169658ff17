import SciCalc.Proofs.Expression.ErrorPosition
import SciCalc.Proofs.Plot.Requests

/-!
# How a request fails

A request fails when one of its entries fails by itself, and then as the first
of these does. It parses an entry without the white space around it, so the
position in its parse error does not count the white space in front of the
entry, which the position in the error of the entry by itself does.
-/

namespace SciCalc

open Outcome

namespace CalcError

/-- The error with its position moved, if it has one. -/
def relocate (f : Nat → Nat) : CalcError → CalcError
  | .parse cause => .parse (cause.relocate f)
  | .eval cause => .eval cause
  | .mat cause => .mat cause
  | .range cause => .range cause
  | .tooLarge => .tooLarge

theorem relocate_injective {f : Nat → Nat} (hf : Function.Injective f) :
    Function.Injective (relocate f) := by
  intro err err' heq
  cases err with
  | parse cause =>
      cases err' with
      | parse cause' =>
          rw [relocate, relocate, parse.injEq] at heq
          rw [ParseError.relocate_injective hf heq]
      | eval | mat | range | tooLarge => cases heq
  | eval | mat | range | tooLarge =>
      cases err' <;> cases heq
      rfl

end CalcError

/-- Sampling does not parse. -/
theorem Expr.sample_ne_parse_error {e : Expr Float} {parameter : String}
    {low high : Float} {count : Nat} {c : Context} (cause : ParseError Float) :
    e.sample parameter low high count c ≠ .error (.parse cause) := by
  intro h
  unfold Expr.sample at h
  split at h
  · cases h
  split at h
  · cases h
  · cases hsamples : samplesAt Curve.call (linspace low high count)
        ⟨e, parameter, c⟩ with
    | mk outcome curve =>
        rw [hsamples] at h
        cases outcome <;> cases h

/-- The errors of sampling have no position. -/
theorem Expr.relocate_of_sample_eq_error {e : Expr Float} {parameter : String}
    {low high : Float} {count : Nat} {c : Context} {err : CalcError}
    (h : e.sample parameter low high count c = .error err) (f : Nat → Nat) :
    err.relocate f = err := by
  cases err with
  | parse cause => exact absurd h (sample_ne_parse_error cause)
  | eval | mat | range | tooLarge => rfl

/-- A text with a parse error that is not blank has an error with a position. -/
theorem Calculator.exists_position_of_sampleIn {text parameter : String}
    {low high : Float} {count : Nat} {c : Context} {cause : ParseError Float}
    (hinked : text.toList.all Text.isBlank = false)
    (h : Calculator.sampleIn text parameter low high count c =
      .error (.parse cause)) :
    ∃ p, cause.position = some p := by
  rcases bind_eq_error_iff.1 h with hread | ⟨e, -, h⟩
  · have hparse : parseChars text.toList = .error cause := by
      unfold Calculator.read parse at hread
      cases hchars : parseChars (ν := Float) text.toList with
      | error found =>
          rw [hchars] at hread
          cases hread
          rfl
      | ok e =>
          rw [hchars] at hread
          cases hread
    obtain ⟨p, char, hpoints⟩ := pointsAt_of_parseChars hinked hparse
    exact ⟨p, hpoints.position⟩
  · rcases bind_eq_error_iff.1 h with hsample | ⟨samples, -, h⟩
    · exact absurd hsample (Expr.sample_ne_parse_error cause)
    · cases h

namespace PlotRequest

variable {r : PlotRequest} {index : Nat} {text : String} {err own : CalcError}

/-- The error of an entry and the error of its text by itself. -/
theorem series_eq_error_iff (h : isVisible (text, index) = true) :
    r.series index text = .error err ↔
      r.single text =
        .error (err.relocate (· + Text.indentation text.toList)) := by
  have hbody : ((Text.trim text.toList).isEmpty = true) = False := by
    rw [List.isEmpty_iff, Text.trim_eq_nil_iff]
    simpa [isVisible] using h
  have hinjective := CalcError.relocate_injective
    (add_left_injective (Text.indentation text.toList))
  rw [series, single, Calculator.sampleIn, Calculator.read, parse,
    parseChars_eq_trim text.toList]
  simp only [hbody, if_false]
  cases parseChars (ν := Float) (Text.trim text.toList) with
  | error cause =>
      -- the one step where the two part
      change Except.error (CalcError.parse cause) = _ ↔
        Except.error ((CalcError.parse cause).relocate _) = _
      rw [Except.error.injEq, Except.error.injEq, hinjective.eq_iff]
  | ok e =>
      cases hsamples : e.sample r.variableName r.low r.high r.count
          (Context.empty r.mode) with
      | error cause =>
          have hcause := Expr.relocate_of_sample_eq_error hsamples
            (· + Text.indentation text.toList)
          simp only [relocated, Except.map, Except.mapError, id_eq, ok_bind,
            hsamples, error_bind, Except.error.injEq]
          rw [← hcause, hinjective.eq_iff, hcause]
      | ok samples =>
          simp [relocated, Except.map, Except.mapError, hsamples]

variable (r) in
/-- Of the texts this is the first one, blank ones apart, that fails by itself;
`own` is its error. -/
def FailsFirst (texts : List String) (text : String) (own : CalcError) : Prop :=
  ∃ before after, texts = before ++ text :: after ∧
    text.toList.all Text.isBlank = false ∧
    (∀ other ∈ before, other.toList.all Text.isBlank = true ∨
      ∃ s, r.single other = .ok s) ∧
    r.single text = .error own

theorem not_failsFirst_nil : ¬r.FailsFirst [] text own := by
  rintro ⟨before, after, htexts, -⟩
  simp at htexts

theorem failsFirst_cons_iff {first : String} {rest : List String} :
    r.FailsFirst (first :: rest) text own ↔
      (text = first ∧ first.toList.all Text.isBlank = false ∧
        r.single first = .error own) ∨
      ((first.toList.all Text.isBlank = true ∨ ∃ s, r.single first = .ok s) ∧
        r.FailsFirst rest text own) := by
  constructor
  · rintro ⟨before, after, htexts, hvisible, hbefore, hown⟩
    cases before with
    | nil =>
        cases htexts
        exact .inl ⟨rfl, hvisible, hown⟩
    | cons other before =>
        cases htexts
        rw [List.forall_mem_cons] at hbefore
        exact .inr ⟨hbefore.1, before, after, rfl, hvisible, hbefore.2, hown⟩
  · rintro (⟨rfl, hvisible, hown⟩ |
      ⟨hfirst, before, after, rfl, hvisible, hbefore, hown⟩)
    · exact ⟨[], rest, rfl, hvisible, by simp, hown⟩
    · exact ⟨first :: before, after, rfl, hvisible,
        List.forall_mem_cons.2 ⟨hfirst, hbefore⟩, hown⟩

/-- An entry that draws a series is one that has a series by itself. -/
theorem exists_series_eq_ok_iff (h : isVisible (text, index) = true) :
    (∃ found, r.series index text = .ok found) ↔
      ∃ s, r.single text = .ok s := by
  constructor
  · rintro ⟨found, hfound⟩
    obtain ⟨s, ⟨alone, halone, -⟩, -⟩ := (series_eq_ok_iff h).1 hfound
    exact ⟨alone, halone⟩
  · rintro ⟨alone, halone⟩
    exact ⟨_, (series_eq_ok_iff h).2 ⟨_, ⟨alone, halone, rfl⟩, rfl⟩⟩

theorem seriesFrom_eq_error_iff {texts : List String} :
    r.seriesFrom index texts = .error err ↔
      ∃ text, r.FailsFirst texts text
        (err.relocate (· + Text.indentation text.toList)) := by
  induction texts generalizing index with
  | nil => simp [seriesFrom, not_failsFirst_nil]
  | cons first rest ih =>
      have hrest : (r.series index first >>= fun found =>
          r.seriesFrom (index + 1) rest >>= fun others =>
            .ok (found.toList ++ others)) = .error err ↔
          r.series index first = .error err ∨
            (∃ found, r.series index first = .ok found) ∧
              r.seriesFrom (index + 1) rest = .error err := by
        rw [bind_eq_error_iff]
        simp [bind_eq_error_iff]
      have htail := @ih (index + 1)
      simp only [failsFirst_cons_iff, exists_or, exists_and_left, ← htail]
      refine hrest.trans ?_
      cases hvisible : isVisible (first, index) with
      | false =>
          have hblank : first.toList.all Text.isBlank = true := by
            simpa [isVisible] using hvisible
          simp [series_of_blank hvisible, hblank]
      | true =>
          have hinked : first.toList.all Text.isBlank = false := by
            simpa [isVisible] using hvisible
          rw [series_eq_error_iff hvisible, exists_series_eq_ok_iff hvisible]
          simp [hinked]

/-- Some text is the first to fail as soon as one fails. -/
theorem exists_failsFirst {texts : List String} (htext : text ∈ texts)
    (hinked : text.toList.all Text.isBlank = false)
    (hown : r.single text = .error own) :
    ∃ first err, r.FailsFirst texts first err := by
  induction texts with
  | nil => cases htext
  | cons other rest ih =>
      cases hblank : other.toList.all Text.isBlank with
      | true =>
          have hrest : text ∈ rest := by
            refine (List.mem_cons.1 htext).resolve_left ?_
            rintro rfl
            rw [hinked] at hblank
            cases hblank
          obtain ⟨first, err, hfirst⟩ := ih hrest
          exact ⟨first, err, failsFirst_cons_iff.2 (.inr ⟨.inl hblank, hfirst⟩)⟩
      | false =>
          cases hother : r.single other with
          | error cause =>
              exact ⟨other, cause,
                failsFirst_cons_iff.2 (.inl ⟨rfl, hblank, hother⟩)⟩
          | ok s =>
              have hrest : text ∈ rest := by
                refine (List.mem_cons.1 htext).resolve_left ?_
                rintro rfl
                cases hother.symm.trans hown
              obtain ⟨first, err, hfirst⟩ := ih hrest
              exact ⟨first, err,
                failsFirst_cons_iff.2 (.inr ⟨.inr ⟨s, hother⟩, hfirst⟩)⟩

/-- Only one text is the first to fail. -/
theorem FailsFirst.unique {texts : List String} {text' : String}
    {own' : CalcError} (h : r.FailsFirst texts text own)
    (h' : r.FailsFirst texts text' own') : text = text' ∧ own = own' := by
  induction texts with
  | nil => exact absurd h not_failsFirst_nil
  | cons first rest ih =>
      rcases failsFirst_cons_iff.1 h with ⟨rfl, hinked, hown⟩ | ⟨hfine, hrest⟩
      · rcases failsFirst_cons_iff.1 h' with ⟨rfl, -, hown'⟩ | ⟨hfine, -⟩
        · cases hown.symm.trans hown'
          exact ⟨rfl, rfl⟩
        · simp [hinked, hown] at hfine
      · rcases failsFirst_cons_iff.1 h' with ⟨rfl, hinked, hown⟩ | ⟨-, hrest'⟩
        · simp [hinked, hown] at hfine
        · exact ih hrest hrest'

/-- The error of a request from that of its first failing entry by itself. -/
theorem FailsFirst.sampleAll_eq_error_iff
    (h : r.FailsFirst r.expressions text own)
    (hfew : r.expressions.length ≤ limit) :
    r.sampleAll = .error err ↔
      own = err.relocate (· + Text.indentation text.toList) := by
  rw [sampleAll, if_neg (Nat.not_lt.2 hfew), seriesFrom_eq_error_iff]
  constructor
  · rintro ⟨text', h'⟩
    obtain ⟨rfl, rfl⟩ := h.unique h'
    rfl
  · rintro rfl
    exact ⟨text, h⟩

theorem FailsFirst.exists_error {texts : List String}
    (h : r.FailsFirst texts text own) :
    ∃ err : CalcError,
      own = err.relocate (· + Text.indentation text.toList) := by
  obtain ⟨before, after, -, hinked, -, hown⟩ := h
  have hvisible : isVisible (text, 0) = true := by simp [isVisible, hinked]
  cases hseries : r.series 0 text with
  | error err =>
      have hsingle := (series_eq_error_iff hvisible).1 hseries
      exact ⟨err, Except.error.inj (hown.symm.trans hsingle)⟩
  | ok found =>
      obtain ⟨s, hs⟩ := (exists_series_eq_ok_iff hvisible).1 ⟨found, hseries⟩
      cases hown.symm.trans hs

/-- Only a position in front of which there is white space is lost. -/
theorem FailsFirst.eq_relocate_iff {texts : List String}
    (h : r.FailsFirst texts text own) (offset : Nat) :
    own = own.relocate (· + offset) ↔
      offset = 0 ∨ ∀ cause, own ≠ .parse cause := by
  obtain ⟨before, after, -, hinked, -, hown⟩ := h
  cases own with
  | eval | mat | range | tooLarge => simp [CalcError.relocate]
  | parse cause =>
      obtain ⟨p, hp⟩ := Calculator.exists_position_of_sampleIn hinked hown
      obtain ⟨reason, position⟩ := cause
      subst hp
      simp [CalcError.relocate, ParseError.relocate]

end PlotRequest

/-- A request of few enough entries fails exactly when an entry that is not
blank fails by itself. It has the error of the first such entry, but a position
in it does not count the white space in front of the entry; so it is the same
error exactly when there is no such white space or no position. -/
theorem plot_request_fails_as_first_entry (r : PlotRequest)
    (hfew : r.expressions.length ≤ PlotRequest.limit) :
    ((∃ err, r.sampleAll = .error err) ↔
      ∃ text ∈ r.expressions, text.toList.all Text.isBlank = false ∧
        ∃ own, Calculator.sampleIn text r.variableName r.low r.high r.count
          (Context.empty r.mode) = .error own) ∧
    ∀ text own, r.FailsFirst r.expressions text own →
      (∃ err, r.sampleAll = .error err ∧
        own = err.relocate (· + Text.indentation text.toList)) ∧
      (r.sampleAll = .error own ↔
        Text.indentation text.toList = 0 ∨ ∀ cause, own ≠ .parse cause) := by
  have hfirst : ∀ text own, r.FailsFirst r.expressions text own →
      ∃ err, r.sampleAll = .error err ∧
        own = err.relocate (· + Text.indentation text.toList) := by
    intro text own h
    obtain ⟨err, herr⟩ := h.exists_error
    exact ⟨err, (h.sampleAll_eq_error_iff hfew).2 herr, herr⟩
  refine ⟨⟨?_, ?_⟩, fun text own h => ⟨hfirst text own h, ?_⟩⟩
  · rintro ⟨err, herr⟩
    rw [PlotRequest.sampleAll, if_neg (Nat.not_lt.2 hfew),
      PlotRequest.seriesFrom_eq_error_iff] at herr
    obtain ⟨text, before, after, htexts, hinked, -, hown⟩ := herr
    exact ⟨text, by simp [htexts], hinked, _, hown⟩
  · rintro ⟨text, htext, hinked, own, hown⟩
    obtain ⟨first, err, h⟩ := PlotRequest.exists_failsFirst htext hinked hown
    obtain ⟨err', herr', -⟩ := hfirst first err h
    exact ⟨err', herr'⟩
  · rw [h.sampleAll_eq_error_iff hfew, h.eq_relocate_iff]

/-- Behind a blank entry and one that can be drawn, the third one fails; the
fourth, which fails too, is not looked at. -/
theorem plot_request_fails_as_third_entry :
    let r : PlotRequest := ⟨["", "x", " x+", "$"], 0, 1, 2, .radians, "x"⟩
    let own : CalcError := .parse (.here 2 (.endsWith (.operator .add)))
    r.expressions.length ≤ PlotRequest.limit ∧
      r.FailsFirst r.expressions " x+" own ∧
      (∃ err, r.sampleAll = .error err ∧ own = err.relocate (· + 1)) ∧
      ¬r.sampleAll = .error own := by
  intro r own
  have hfew : r.expressions.length ≤ PlotRequest.limit := by decide
  have hfirst : r.FailsFirst r.expressions " x+" own := by
    refine ⟨["", "x"], ["$"], rfl, by decide, ?_, by cbv⟩
    rintro other (_ | ⟨_, _ | ⟨_, ⟨⟩⟩⟩)
    · exact .inl (by decide)
    · exact .inr (exists_eq_ok_of_isOk (by decide +kernel))
  obtain ⟨-, herrors⟩ := plot_request_fails_as_first_entry r hfew
  obtain ⟨herr, hsame⟩ := herrors " x+" own hfirst
  refine ⟨hfew, hfirst, herr, ?_⟩
  rw [hsame]
  rintro (hindentation | hcause)
  · cases hindentation
  · exact hcause _ rfl

/-- A request blames the first character of an entry for the second one. -/
theorem plot_request_drops_indentation :
    let r : PlotRequest := ⟨[" $"], 0, 1, 2, .radians, "x"⟩
    let own : CalcError := .parse (.here 1 (.unknownCharacter '$'))
    r.expressions.length ≤ PlotRequest.limit ∧
      r.FailsFirst r.expressions " $" own ∧
      r.sampleAll = .error (.parse (.here 0 (.unknownCharacter '$'))) ∧
      r.sampleAll ≠ .error own := by
  intro r own
  have hdrawn :
      r.sampleAll = .error (.parse (.here 0 (.unknownCharacter '$'))) := by
    cbv
  refine ⟨by decide, ⟨[], [], rfl, by decide, by simp, by cbv⟩, hdrawn, ?_⟩
  simp [hdrawn, own, ParseError.here]

end SciCalc
