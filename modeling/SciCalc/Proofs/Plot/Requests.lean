import SciCalc.Calculator
import SciCalc.Plot.Request
import SciCalc.Proofs.Expression.Trimming

/-!
# A request and its single plots

A request is sampled entry by entry. A blank entry gives no series but uses up
a color, and every other entry gives the series that it has by itself, in the
color of its place: that the request trims a text before it is parsed makes no
difference.
-/

namespace SciCalc

open Outcome

theorem Calculator.sampleIn_eq_ok_iff {text parameter : String}
    {low high : Float} {count : Nat} {c : Context} {s : Series Float} :
    Calculator.sampleIn text parameter low high count c = .ok s ↔
      ∃ e samples, parse text = .ok e ∧
        e.sample parameter low high count c = .ok samples ∧
        s = Series.ofSamples (String.ofList (Text.trim text.toList)) 0
          samples := by
  constructor
  · intro h
    obtain ⟨e, hparse, h⟩ := bind_eq_ok_iff.1 h
    obtain ⟨samples, hsamples, h⟩ := bind_eq_ok_iff.1 h
    cases h
    exact ⟨e, samples, mapError_eq_ok_iff.1 hparse, hsamples, rfl⟩
  · rintro ⟨e, samples, hparse, hsamples, rfl⟩
    rw [Calculator.sampleIn, Calculator.read,
      mapError_eq_ok_iff.2 hparse, ok_bind, hsamples]
    rfl

namespace PlotRequest

variable (r : PlotRequest)

/-- The series that a text has by itself under the settings of a request. -/
def single (text : String) : Except CalcError (Series Float) :=
  Calculator.sampleIn text r.variableName r.low r.high r.count
    (Context.empty r.mode)

/-- The series of an entry: that of its text, in the color of its place. -/
def Draws (entry : String × Nat) (s : Series Float) : Prop :=
  ∃ alone, r.single entry.1 = .ok alone ∧
    s = Series.ofSamples alone.expression entry.2 alone.samples

/-- The entry is not blank. -/
def isVisible (entry : String × Nat) : Bool :=
  !entry.1.toList.all Text.isBlank

variable {r} {index : Nat} {text : String} {s : Series Float}

theorem series_of_blank (h : isVisible (text, index) = false) :
    r.series index text = .ok none := by
  have hnil : Text.trim text.toList = [] := by
    rw [Text.trim_eq_nil_iff]
    simpa [isVisible] using h
  simp [series, hnil]

theorem series_eq_ok_iff (h : isVisible (text, index) = true)
    {found : Option (Series Float)} :
    r.series index text = .ok found ↔
      ∃ s, r.Draws (text, index) s ∧ found = some s := by
  have hbody : ((Text.trim text.toList).isEmpty = true) = False := by
    rw [List.isEmpty_iff, Text.trim_eq_nil_iff]
    simpa [isVisible] using h
  rw [series]
  simp only [hbody, if_false]
  constructor
  · intro hfound
    obtain ⟨e, hparse, hfound⟩ := bind_eq_ok_iff.1 hfound
    obtain ⟨samples, hsamples, hfound⟩ := bind_eq_ok_iff.1 hfound
    cases hfound
    have hwhole := parseChars_trim_eq_ok_iff.1 (mapError_eq_ok_iff.1 hparse)
    exact ⟨_, ⟨_, Calculator.sampleIn_eq_ok_iff.2
      ⟨e, samples, hwhole, hsamples, rfl⟩, rfl⟩, rfl⟩
  · rintro ⟨_, ⟨alone, halone, rfl⟩, rfl⟩
    obtain ⟨e, samples, hparse, hsamples, rfl⟩ :=
      Calculator.sampleIn_eq_ok_iff.1 halone
    have hbody' := parseChars_trim_eq_ok_iff.2 hparse
    rw [mapError_eq_ok_iff.2 hbody', ok_bind, hsamples]
    rfl

theorem seriesFrom_eq_ok_iff {texts : List String} {all : List (Series Float)} :
    r.seriesFrom index texts = .ok all ↔
      List.Forall₂ r.Draws ((texts.zipIdx index).filter isVisible) all := by
  induction texts generalizing index all with
  | nil => simp [seriesFrom, eq_comm]
  | cons text rest ih =>
      rw [seriesFrom, List.zipIdx_cons]
      cases hvisible : isVisible (text, index) with
      | false =>
          rw [List.filter_cons_of_neg (by simp [hvisible]),
            series_of_blank hvisible, ← ih]
          simp
      | true =>
          rw [List.filter_cons_of_pos (by simp [hvisible]),
            List.forall₂_cons_left_iff]
          constructor
          · intro h
            obtain ⟨found, hfound, h⟩ := bind_eq_ok_iff.1 h
            obtain ⟨others, hothers, h⟩ := bind_eq_ok_iff.1 h
            cases h
            obtain ⟨s, hs, rfl⟩ := (series_eq_ok_iff hvisible).1 hfound
            exact ⟨s, others, hs, ih.1 hothers, rfl⟩
          · rintro ⟨s, others, hs, hothers, rfl⟩
            rw [(series_eq_ok_iff hvisible).2 ⟨s, hs, rfl⟩, ok_bind,
              ih.2 hothers]
            rfl

variable (r) in
/-- The entries that are not blank, each with its place. -/
def visible : List (String × Nat) :=
  r.expressions.zipIdx.filter isVisible

theorem sampleAll_eq_ok_iff {all : List (Series Float)} :
    r.sampleAll = .ok all ↔
      r.expressions.length ≤ limit ∧ List.Forall₂ r.Draws r.visible all := by
  rw [sampleAll]
  split
  · next hmany => simp [Nat.not_le.2 hmany]
  · next hfew => rw [seriesFrom_eq_ok_iff, and_iff_right (Nat.not_lt.1 hfew)]; rfl

theorem mem_visible {entry : String × Nat} :
    entry ∈ r.visible ↔
      r.expressions[entry.2]? = some entry.1 ∧ isVisible entry = true := by
  rw [visible, List.mem_filter, List.mem_zipIdx_iff_getElem?]

/-- There are colors enough for the entries of a request. -/
theorem Draws.colorIndex {entry : String × Nat} (h : r.Draws entry s)
    (hentry : entry ∈ r.visible) (hfew : r.expressions.length ≤ limit) :
    s.colorIndex.val = entry.2 := by
  obtain ⟨alone, -, rfl⟩ := h
  obtain ⟨hplace, -⟩ := List.getElem?_eq_some_iff.1 (mem_visible.1 hentry).1
  rw [limit] at hfew
  exact Nat.mod_eq_of_lt (by omega)

theorem Draws.expression {entry : String × Nat} (h : r.Draws entry s) :
    s.expression = String.ofList (Text.trim entry.1.toList) := by
  obtain ⟨alone, halone, rfl⟩ := h
  obtain ⟨e, samples, -, -, rfl⟩ := Calculator.sampleIn_eq_ok_iff.1 halone
  rfl

theorem Draws.unique {entry : String × Nat} {s' : Series Float}
    (h : r.Draws entry s) (h' : r.Draws entry s') : s = s' := by
  obtain ⟨alone, halone, rfl⟩ := h
  obtain ⟨alone', halone', rfl⟩ := h'
  cases halone.symm.trans halone'
  rfl

/-- A series of a request is that of one of the entries. -/
theorem mem_iff_of_forall₂_draws {entries : List (String × Nat)}
    {all : List (Series Float)} (h : List.Forall₂ r.Draws entries all) :
    s ∈ all ↔ ∃ entry ∈ entries, r.Draws entry s := by
  induction h with
  | nil => simp
  | @cons entry drawn entries all hdrawn h ih =>
      have hfirst : s = drawn ↔ r.Draws entry s := by
        constructor
        · rintro rfl
          exact hdrawn
        · exact fun hs => hs.unique hdrawn
      rw [List.mem_cons, List.exists_mem_cons_iff, ih, hfirst]

/-- The series are named by the texts of the entries. -/
theorem map_expression_of_draws {entries : List (String × Nat)}
    {all : List (Series Float)} (h : List.Forall₂ r.Draws entries all) :
    all.map Series.expression =
      entries.map fun entry =>
        String.ofList (Text.trim entry.1.toList) := by
  induction h with
  | nil => rfl
  | cons hdrawn h ih => rw [List.map_cons, List.map_cons, ih, hdrawn.expression]

/-- The texts of the entries that are not blank. -/
theorem map_fst_visible :
    r.visible.map Prod.fst =
      r.expressions.filter fun text => !text.toList.all Text.isBlank := by
  have htexts := List.filter_map (f := Prod.fst)
    (p := fun text : String => !text.toList.all Text.isBlank)
    (l := r.expressions.zipIdx)
  rw [List.zipIdx_map_fst] at htexts
  exact htexts.symm

end PlotRequest

/-- A request that succeeds has one series for each entry that is not blank, in
the order of the entries, with the samples that the entry has by itself; and
the series in one place are the same in all requests over the same range that
have the same text in this place. -/
theorem plot_request_is_its_single_plots :
    (∀ (r : PlotRequest) (all : List (Series Float)), r.sampleAll = .ok all →
      List.Forall₂ (fun (entry : String × Nat) (s : Series Float) =>
          s.colorIndex.val = entry.2 ∧
          s.expression = String.ofList (Text.trim entry.1.toList) ∧
          ∃ alone, Calculator.sampleIn entry.1 r.variableName r.low r.high
              r.count (Context.empty r.mode) = .ok alone ∧
            s.samples = alone.samples)
        (r.expressions.zipIdx.filter fun entry =>
          !entry.1.toList.all Text.isBlank) all) ∧
    (∀ (r : PlotRequest) (others : List String) (all all' : List (Series Float)),
      r.sampleAll = .ok all →
      ({ r with expressions := others } : PlotRequest).sampleAll = .ok all' →
      ∀ (index : Nat) (text : String), r.expressions[index]? = some text →
        others[index]? = some text →
        ∀ s : Series Float, s.colorIndex.val = index →
          (s ∈ all ↔ s ∈ all')) := by
  constructor
  · intro r all hall
    obtain ⟨hfew, hdraws⟩ := PlotRequest.sampleAll_eq_ok_iff.1 hall
    have hplaces := (List.forall₂_and_left _ _).2
      ⟨fun entry (hentry : entry ∈ r.visible) => hentry, hdraws⟩
    apply hplaces.imp
    rintro entry s ⟨hentry, hs⟩
    refine ⟨hs.colorIndex hentry hfew, hs.expression, ?_⟩
    obtain ⟨alone, halone, rfl⟩ := hs
    exact ⟨alone, halone, rfl⟩
  · intro r others all all' hall hall' index text htext htext' s hindex
    -- the series is the one that the text draws in this place
    have hplace : ∀ (request : PlotRequest) (found : List (Series Float)),
        request.sampleAll = .ok found →
        request.expressions[index]? = some text →
        (s ∈ found ↔ PlotRequest.isVisible (text, index) = true ∧
          request.Draws (text, index) s) := by
      intro request found hfound hrequest
      obtain ⟨hfew, hdraws⟩ := PlotRequest.sampleAll_eq_ok_iff.1 hfound
      rw [PlotRequest.mem_iff_of_forall₂_draws hdraws]
      constructor
      · rintro ⟨⟨text', index'⟩, hentry, hs⟩
        obtain rfl : index' = index :=
          (hs.colorIndex hentry hfew).symm.trans hindex
        obtain ⟨hother, hvisible⟩ := PlotRequest.mem_visible.1 hentry
        cases hother.symm.trans hrequest
        exact ⟨hvisible, hs⟩
      · rintro ⟨hvisible, hs⟩
        exact ⟨_, PlotRequest.mem_visible.2 ⟨hrequest, hvisible⟩, hs⟩
    rw [hplace _ _ hall htext, hplace _ _ hall' htext']
    rfl

/-- A blank entry uses up a color, and white space around a text is no part of
it. Another request, with other texts in the first two places, has the same
series in the third. -/
theorem plot_request_with_blank_entry :
    let r : PlotRequest := ⟨["x", " ", " -x "], 0, 1, 2, .radians, "x"⟩
    ∃ all all' : List (Series Float), r.sampleAll = .ok all ∧
      ({ r with expressions := ["", "sin(x)", " -x "] } :
        PlotRequest).sampleAll = .ok all' ∧
      all.length = 2 ∧
      (∀ s ∈ all[1]?, s.colorIndex.val = 2 ∧ s.expression = "-x") ∧
      ∀ s : Series Float, s.colorIndex.val = 2 → (s ∈ all ↔ s ∈ all') := by
  intro r
  let others := ["", "sin(x)", " -x "]
  obtain ⟨all, hall⟩ : ∃ all, r.sampleAll = .ok all :=
    exists_eq_ok_of_isOk (by decide +kernel)
  obtain ⟨all', hall'⟩ : ∃ all',
      ({ r with expressions := others } : PlotRequest).sampleAll = .ok all' :=
    exists_eq_ok_of_isOk (by decide +kernel)
  obtain ⟨hsingle, hother⟩ := plot_request_is_its_single_plots
  have hentries : (r.expressions.zipIdx.filter fun entry =>
      !entry.1.toList.all Text.isBlank) = [("x", 0), (" -x ", 2)] := by decide
  have hseries := hsingle r all hall
  rw [hentries] at hseries
  refine ⟨all, all', hall, hall', hseries.length_eq.symm, ?_, ?_⟩
  · cases hseries with
    | cons hfirst hrest =>
        cases hrest with
        | cons hsecond hrest =>
            rintro s ⟨⟩
            exact ⟨hsecond.1, hsecond.2.1⟩
  · exact hother r others all all' hall hall' 2 " -x " rfl rfl

end SciCalc
