import SciCalc.Proofs.Expression.UnboundNames
import SciCalc.Proofs.Plot.FirstFailure
import SciCalc.Proofs.Plot.Sampling
import SciCalc.Proofs.Settings.Keys

/-!
# Settings that can be plotted with

Whatever a document sets, the ends of the ranges are finite numbers and the
variable is a name that an expression reads as a variable. So a plot under the
settings of a document fails for its texts only, or for a number of samples that
no list can hold, which a document may ask for.
-/

namespace SciCalc

open Outcome

variable {ν : Type}

/-! ## Names of variables -/

namespace Settings

theorem isVariableName_iff {name : String} :
    isVariableName name = true ↔ name.toList ≠ [] ∧
      (∀ c ∈ name.toList, c.isAlpha = true) ∧ isVariable name = true := by
  simp [isVariableName, isVariable, and_assoc]

theorem parse_of_isVariableName [Literal ν] {name : String}
    (h : isVariableName name = true) :
    parse (ν := ν) name = .ok (.identifier name) := by
  obtain ⟨hne, hletters, hvariable⟩ := isVariableName_iff.1 h
  have hname : Elementary.ofName? name = none := by
    simp [isVariable] at hvariable
    exact hvariable.1
  obtain ⟨lexemes, htext, htokens⟩ :=
    (Lexeme.Written.identifier (ν := ν) hne hletters).ofText
  rw [String.ofList_toList] at htokens
  have hderives := (Grammar.Derives.identifier (ν := ν) hname
    ).primary_toUnary.unary_toAdditive
  rw [← htokens] at hderives
  rw [parse, parseChars_eq_parseLexemes htext hderives]
  exact parseLexemes_eq_ok_iff.2 ⟨0, hderives, Nat.zero_le _⟩

theorem mem_freeVariables_identifier {name : String} :
    name ∈ (Expr.identifier name : Expr ν).freeVariables ↔
      constant? name = none := by
  rw [Expr.mem_freeVariables, Expr.occurrences]
  cases constant? name <;> simp

/-- The names a variable can have are those that an expression reads as a
variable. -/
theorem isVariableName_iff_parse [Literal ν] {name : String} :
    isVariableName name = true ↔
      parse name = .ok (Expr.identifier name : Expr ν) ∧
        name ∈ (Expr.identifier name : Expr ν).freeVariables := by
  constructor
  · intro h
    have hvariable := (isVariableName_iff.1 h).2.2
    refine ⟨parse_of_isVariableName h, mem_freeVariables_identifier.2 ?_⟩
    simp [isVariable] at hvariable
    exact hvariable.2
  · rintro ⟨hparse, hfree⟩
    obtain ⟨typed, full, depth, hcut, hderives, -⟩ :=
      exists_cut_of_parseChars hparse
    obtain ⟨htoken, hvariable⟩ := hderives.mem_freeVariables.1 hfree
    obtain ⟨l, hl, hname⟩ := List.mem_map.1 htoken
    obtain ⟨run, hspelled⟩ := hcut.exists_spelled l hl
    rw [hname] at hspelled
    obtain ⟨hne, hletters⟩ := hspelled.letters
    exact isVariableName_iff.2 ⟨hne, hletters, hvariable⟩

/-! ## What a pair of a document sets -/

/-- A key with a value that it admits, and the settings that come of it. -/
inductive Sets (s : Settings) : String → String → Settings → Prop
  | mode {value : String} {mode : AngleMode}
      (hmode : AngleMode.ofText? value = some mode) :
      Sets s "angle_mode" value { s with mode }
  | xLow {value : String} {v : Float} (hnumber : number "x_min" value = .ok v) :
      Sets s "x_min" value { s with x := { s.x with low := v } }
  | xHigh {value : String} {v : Float} (hnumber : number "x_max" value = .ok v) :
      Sets s "x_max" value { s with x := { s.x with high := v } }
  | yLow {value : String} {v : Float} (hnumber : number "y_min" value = .ok v) :
      Sets s "y_min" value { s with y := { s.y with low := v } }
  | yHigh {value : String} {v : Float} (hnumber : number "y_max" value = .ok v) :
      Sets s "y_max" value { s with y := { s.y with high := v } }
  | count {value : String} {count : Nat}
      (hcount : Decimal.readWord? value.toList = some count) :
      Sets s "step_count" value { s with count }
  | variableName {value : String} (hname : isVariableName value = true) :
      Sets s "variable" value { s with variableName := value }
  | logLevel {value : String} {level : LogLevel}
      (hlevel : LogLevel.ofText value.toList = .ok level) :
      Sets s "log_level" value
        { s with logLevel := String.ofList (Text.lower value.toList) }

variable {s s' : Settings}

theorem set_eq_ok_iff {key value : String} :
    s.set key value = .ok s' ↔ s.Sets key value s' := by
  constructor
  · intro h
    rcases s.set_cases key value with ⟨k, v, rfl, hread, hset⟩ | ⟨err, -, hset⟩
    · rw [h] at hset
      cases hset
      cases k with
      | mode => exact .mode hread
      | xLow => exact .xLow (number_eq_ok_iff.2 hread)
      | xHigh => exact .xHigh (number_eq_ok_iff.2 hread)
      | yLow => exact .yLow (number_eq_ok_iff.2 hread)
      | yHigh => exact .yHigh (number_eq_ok_iff.2 hread)
      | count => exact .count hread
      | variableName =>
          obtain ⟨hname, hvalue⟩ := Option.ite_none_right_eq_some.1 hread
          cases hvalue
          exact .variableName hname
      | logLevel =>
          obtain ⟨hlevel, hvalue⟩ := Option.ite_none_right_eq_some.1 hread
          obtain ⟨level, hlevel⟩ := exists_eq_ok_of_isOk hlevel
          cases hvalue
          exact .logLevel hlevel
    · rw [h] at hset
      cases hset
  · intro h
    cases h with
    | mode hmode => exact set_of_read (k := .mode) hmode s
    | xLow h => exact set_of_read (k := .xLow) (number_eq_ok_iff.1 h) s
    | xHigh h => exact set_of_read (k := .xHigh) (number_eq_ok_iff.1 h) s
    | yLow h => exact set_of_read (k := .yLow) (number_eq_ok_iff.1 h) s
    | yHigh h => exact set_of_read (k := .yHigh) (number_eq_ok_iff.1 h) s
    | count hcount => exact set_of_read (k := .count) hcount s
    | variableName hname =>
        exact set_of_read (k := .variableName) (if_pos hname) s
    | logLevel hlevel =>
        exact set_of_read (k := .logLevel) (if_pos (by rw [hlevel]; rfl)) s

theorem exists_set_variable_iff {name : String} :
    (∃ next, s.set "variable" name = .ok next) ↔ isVariableName name = true := by
  have hset : s.set "variable" name =
      if isVariableName name then .ok { s with variableName := name }
      else .error (.variableName name) := rfl
  rw [hset]
  split
  · next hname => simp [hname]
  · next hname => simp [hname]

/-! ## What every document leaves intact -/

/-- Settings under which a plot can be made. -/
structure Usable (s : Settings) : Prop where
  x_low : s.x.low.isFinite = true
  x_high : s.x.high.isFinite = true
  y_low : s.y.low.isFinite = true
  y_high : s.y.high.isFinite = true
  variableName : isVariableName s.variableName = true

theorem usable_standard : standard.Usable where
  x_low := by decide +kernel
  x_high := by decide +kernel
  y_low := by decide +kernel
  y_high := by decide +kernel
  variableName := by decide

theorem isFinite_of_number {key value : String} {v : Float}
    (h : number key value = .ok v) : v.isFinite = true := by
  unfold number at h
  split at h
  · split at h
    · next hfinite =>
      cases h
      exact hfinite
    · cases h
  · cases h

/-- One pair of a document. -/
theorem Usable.set (hs : s.Usable) {key value : String}
    (h : s.set key value = .ok s') : s'.Usable := by
  cases set_eq_ok_iff.1 h with
  | mode hmode => exact { hs with }
  | xLow hnumber => exact { hs with x_low := isFinite_of_number hnumber }
  | xHigh hnumber => exact { hs with x_high := isFinite_of_number hnumber }
  | yLow hnumber => exact { hs with y_low := isFinite_of_number hnumber }
  | yHigh hnumber => exact { hs with y_high := isFinite_of_number hnumber }
  | count hcount => exact { hs with }
  | variableName hname => exact { hs with variableName := hname }
  | logLevel hlevel => exact { hs with }

/-- All pairs of a document, one after the other. -/
theorem Usable.setAll (hs : s.Usable) {found : List (String × String)}
    (h : s.setAll found = .ok s') : s'.Usable := by
  induction found generalizing s with
  | nil =>
      cases h
      exact hs
  | cons pair rest ih =>
      obtain ⟨next, hnext, hrest⟩ := bind_eq_ok_iff.1 h
      exact ih (hs.set hnext) hrest

theorem usable_of_read {document : String} (h : read document = .ok s) :
    s.Usable := by
  obtain ⟨found, -, hfound⟩ := bind_eq_ok_iff.1 h
  exact usable_standard.setAll hfound

/-! ## Plots -/

/-- The binding of the variable is all that an expression in it needs. -/
theorem Usable.exists_draws (hs : s.Usable) (hcount : s.count ≤ Sample.limit)
    (texts : List String) {entry : String × Nat} {e : Expr Float}
    (hparse : parse entry.1 = .ok e)
    (hfree : ∀ name ∈ e.freeVariables, name = s.variableName) :
    ∃ series, (s.plotRequest texts).Draws entry series ∧
      series.length = s.count := by
  have hvalue : ∀ x, ∃ value, e.evaluate
      ((Context.empty s.mode).bind s.variableName x) = .ok value := by
    intro x
    rw [evaluate_eq_ok_iff_of_parseChars hparse]
    intro name hname
    rw [hfree name hname]
    exact ⟨x, Context.lookup?_bind_self _ s.variableName x⟩
  obtain ⟨samples, hsamples, hlength⟩ :=
    Expr.exists_sample hs.x_low hs.x_high hcount hvalue
  exact ⟨_, ⟨_, Calculator.sampleIn_eq_ok_iff.2
    ⟨e, samples, hparse, hsamples, rfl⟩, rfl⟩, hlength⟩

/-- With room for the samples, or with none to draw, every text that is not blank
gives its series. -/
theorem Usable.exists_sampleAll (hs : s.Usable) {texts : List String}
    (hfew : texts.length ≤ 5)
    (htexts : ∀ text ∈ texts, text.toList.all Text.isBlank = true ∨
      ∃ e : Expr Float, parse text = .ok e ∧
        ∀ name ∈ e.freeVariables, name = s.variableName)
    (hroom : s.count ≤ Sample.limit ∨
      ∀ text ∈ texts, text.toList.all Text.isBlank = true) :
    ∃ all : List (Series Float), (s.plotRequest texts).sampleAll = .ok all ∧
      all.map Series.expression =
        (texts.filter fun text => !text.toList.all Text.isBlank).map
          (fun text => String.ofList (Text.trim text.toList)) ∧
      ∀ series ∈ all, series.length = s.count := by
  let r := s.plotRequest texts
  have hentries : ∀ entry ∈ r.visible, ∃ series,
      r.Draws entry series ∧ series.length = s.count := by
    intro entry hentry
    obtain ⟨hplace, hvisible⟩ := PlotRequest.mem_visible.1 hentry
    have htext := List.mem_of_getElem? hplace
    rcases hroom with hcount | hblank
    · rcases htexts entry.1 htext with hblank | ⟨e, hparse, hfree⟩
      · simp [PlotRequest.isVisible, hblank] at hvisible
      · exact hs.exists_draws hcount texts hparse hfree
    · simp [PlotRequest.isVisible, hblank entry.1 htext] at hvisible
  obtain ⟨all, hall⟩ := exists_forall₂ hentries
  have hdraws := hall.imp fun _ _ h => h.1
  refine ⟨all, PlotRequest.sampleAll_eq_ok_iff.2 ⟨hfew, hdraws⟩, ?_, ?_⟩
  · rw [PlotRequest.map_expression_of_draws hdraws,
      show texts = r.expressions from rfl, ← PlotRequest.map_fst_visible,
      List.map_map]
    rfl
  · intro series hseries
    obtain ⟨entry, hentry, hdrawn⟩ :=
      (PlotRequest.mem_iff_of_forall₂_draws hdraws).1 hseries
    obtain ⟨series', hdrawn', hlength⟩ := hentries entry hentry
    rw [hdrawn.unique hdrawn', hlength]

/-- The first text that is not blank stops the program. -/
theorem Usable.sampleAll_eq_tooLarge (hs : s.Usable)
    (hcount : Sample.limit < s.count) {texts : List String}
    (hfew : texts.length ≤ 5)
    (htexts : ∀ text ∈ texts, text.toList.all Text.isBlank = true ∨
      ∃ e : Expr Float, parse text = .ok e ∧
        ∀ name ∈ e.freeVariables, name = s.variableName)
    (hinked : ∃ text ∈ texts, text.toList.all Text.isBlank = false) :
    (s.plotRequest texts).sampleAll = .error .tooLarge := by
  have hsingle : ∀ text ∈ texts, text.toList.all Text.isBlank = false →
      (s.plotRequest texts).single text = .error .tooLarge := by
    intro text htext hvisible
    rcases htexts text htext with hblank | ⟨e, hparse, -⟩
    · rw [hvisible] at hblank
      cases hblank
    · have hsample : e.sample s.variableName s.x.low s.x.high s.count
          (Context.empty s.mode) = .error .tooLarge :=
        Expr.sample_eq_tooLarge hs.x_low hs.x_high hcount
      rw [PlotRequest.single, Calculator.sampleIn, Calculator.read,
        mapError_eq_ok_iff.2 hparse, ok_bind]
      exact congrArg (· >>= _) hsample
  obtain ⟨text, htext, hvisible⟩ := hinked
  obtain ⟨first, own, hfirst⟩ := PlotRequest.exists_failsFirst htext hvisible
    (hsingle text htext hvisible)
  obtain ⟨before, after, hplace, hfirstVisible, -, hown⟩ := id hfirst
  have hmem : first ∈ texts := by simp [hplace]
  cases hown.symm.trans (hsingle first hmem hfirstVisible)
  exact (hfirst.sampleAll_eq_error_iff hfew).2 rfl

end Settings

/-- The settings of a document can be plotted with, as long as a list can hold as
many samples as they ask for: expressions in their variable give one series each,
with as many samples as the settings ask for. Where no list can hold them, the first
expression stops the program. The names that the variable can have are exactly those
that parse to the bare name and are free in it. -/
theorem accepted_settings_can_be_plotted (s : Settings) :
    (∀ document : String, Settings.read document = .ok s →
      ∀ texts : List String, texts.length ≤ 5 →
        (∀ text ∈ texts, text.toList.all Text.isBlank = true ∨
          ∃ e : Expr Float, parse text = .ok e ∧
            ∀ name ∈ e.freeVariables, name = s.variableName) →
        (s.count ≤ Sample.limit ∨
            (∀ text ∈ texts, text.toList.all Text.isBlank = true) →
          ∃ all : List (Series Float),
            (s.plotRequest texts).sampleAll = .ok all ∧
            all.map Series.expression =
              (texts.filter fun text => !text.toList.all Text.isBlank).map
                (fun text => String.ofList (Text.trim text.toList)) ∧
            ∀ series ∈ all, series.length = s.count) ∧
        (Sample.limit < s.count →
          (∃ text ∈ texts, text.toList.all Text.isBlank = false) →
          (s.plotRequest texts).sampleAll = .error .tooLarge)) ∧
    (∀ name : String,
      (∃ next, s.set "variable" name = .ok next) ↔
        parse name = .ok (Expr.identifier name : Expr Float) ∧
          name ∈ (Expr.identifier name : Expr Float).freeVariables) ∧
    ∀ document : String, Settings.read document = .ok s →
      parse s.variableName =
          .ok (Expr.identifier s.variableName : Expr Float) ∧
        s.variableName ∈
          (Expr.identifier s.variableName : Expr Float).freeVariables := by
  refine ⟨?_, ?_, ?_⟩
  · intro document hread texts hfew htexts
    have hs := Settings.usable_of_read hread
    exact ⟨hs.exists_sampleAll hfew htexts, fun hcount hinked =>
      hs.sampleAll_eq_tooLarge hcount hfew htexts hinked⟩
  · intro name
    rw [Settings.exists_set_variable_iff,
      Settings.isVariableName_iff_parse (ν := Float)]
  · intro document hread
    exact Settings.isVariableName_iff_parse.1
      (Settings.usable_of_read hread).variableName

/-- The last name that a document sets counts, and a blank text is passed over. -/
theorem plot_under_settings_of_document :
    ∃ s : Settings,
      Settings.read "variable: u\nstep_count: 3\n# left\nvariable: t" = .ok s ∧
      s.variableName = "t" ∧
      (∃ all : List (Series Float),
        (s.plotRequest [" -t", " "]).sampleAll = .ok all ∧
        all.map Series.expression = ["-t"] ∧
        ∀ series ∈ all, series.length = s.count) ∧
      ¬(∃ next, s.set "variable" "e" = .ok next) := by
  obtain ⟨s, hread, hfields⟩ : ∃ s : Settings,
      Settings.read "variable: u\nstep_count: 3\n# left\nvariable: t" =
        .ok s ∧ (s.variableName, s.count) = ("t", 3) :=
    map_eq_ok_iff.1 (by decide +kernel)
  obtain ⟨hplot, hset, -⟩ := accepted_settings_can_be_plotted s
  obtain ⟨hname, hcount⟩ := Prod.mk.inj hfields
  have hnegated : parse " -t" = .ok (.neg (.identifier "t") : Expr Float) := by
    cbv
  have htexts : ∀ text ∈ [" -t", " "], text.toList.all Text.isBlank = true ∨
      ∃ e : Expr Float, parse text = .ok e ∧
        ∀ name ∈ e.freeVariables, name = s.variableName := by
    rw [hname]
    rintro text (_ | ⟨_, _ | ⟨_, ⟨⟩⟩⟩)
    · refine .inr ⟨_, hnegated, fun name hfree => ?_⟩
      exact List.mem_singleton.1 (Expr.mem_freeVariables.1 hfree)
    · exact .inl (by decide)
  refine ⟨s, hread, hname, ?_, ?_⟩
  · refine (hplot _ hread [" -t", " "] (by decide) htexts).1 (.inl ?_)
    rw [hcount]
    decide
  · rw [hset]
    rintro ⟨-, hfree⟩
    have hconstant := Expr.mem_freeVariables.1 hfree
    cases hconstant

/-- Settings that are accepted and ask for more samples than there is room for. -/
theorem plot_beyond_room :
    ∃ s : Settings, Settings.read "step_count: 1000000000000000000" = .ok s ∧
      s.count = 10 ^ 18 ∧
      (∃ e : Expr Float, parse "x" = .ok e ∧
        ∀ name ∈ e.freeVariables, name = s.variableName) ∧
      (s.plotRequest ["x"]).sampleAll = .error .tooLarge ∧
      ¬∃ all : List (Series Float), (s.plotRequest ["x"]).sampleAll = .ok all := by
  obtain ⟨s, hread, hfields⟩ : ∃ s : Settings,
      Settings.read "step_count: 1000000000000000000" = .ok s ∧
        (s.variableName, s.count) = ("x", 10 ^ 18) :=
    map_eq_ok_iff.1 (by decide +kernel)
  obtain ⟨hname, hcount⟩ := Prod.mk.inj hfields
  have hparse : ∃ e : Expr Float, parse "x" = .ok e ∧
      ∀ name ∈ e.freeVariables, name = s.variableName := by
    refine ⟨.identifier "x", by cbv, fun name hfree => ?_⟩
    rw [hname]
    exact List.mem_singleton.1 (Expr.mem_freeVariables.1 hfree)
  have hlarge : Sample.limit < s.count := by
    rw [hcount]
    decide
  have hstops : (s.plotRequest ["x"]).sampleAll = .error .tooLarge := by
    apply (Settings.usable_of_read hread).sampleAll_eq_tooLarge hlarge
    · decide
    · rintro text (_ | ⟨_, ⟨⟩⟩)
      exact .inr hparse
    · exact ⟨"x", List.mem_singleton_self _, by decide⟩
  refine ⟨s, hread, hcount, hparse, hstops, ?_⟩
  rintro ⟨all, hall⟩
  rw [hstops] at hall
  cases hall

end SciCalc
