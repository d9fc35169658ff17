import SciCalc.Calculator
import SciCalc.Proofs.Expression.FreeVariables
import SciCalc.Proofs.Expression.Whitespace

/-!
# Names without a value

The words of a text are its maximal runs of letters. In a text that parses they
are the names in its tree, in the same order, so the word that evaluation stops
at can be read off the text: it is the first one that is no function, no
constant and no variable with a value.
-/

namespace SciCalc

open SciCalc.Outcome

variable {ν : Type}

namespace Text

/-- The maximal runs of letters, from left to right. -/
def words (text : List Char) : List String :=
  ((text.splitOnP fun c => !c.isAlpha).filter fun run => !run.isEmpty).map
    String.ofList

variable {run rest : List Char}

/-- A character that is no letter lies between words. -/
theorem words_append_cons {c : Char} (hc : c.isAlpha = false)
    (before : List Char) :
    words (before ++ c :: rest) = words before ++ words rest := by
  rw [words, List.splitOnP_append_cons _ _ (by simp [hc]), List.filter_append,
    List.map_append]
  rfl

theorem words_cons {c : Char} (hc : c.isAlpha = false) :
    words (c :: rest) = words rest := by
  have hnil : words [] = [] := by simp [words, List.splitOnP_nil]
  have hwhole := @words_append_cons rest c hc []
  rwa [hnil] at hwhole

/-- What has no letters has no words. -/
theorem words_append_of_not_isAlpha (hrun : ∀ c ∈ run, c.isAlpha = false) :
    words (run ++ rest) = words rest := by
  induction run with
  | nil => rfl
  | cons c run ih =>
      rw [List.forall_mem_cons] at hrun
      rw [List.cons_append, words_cons hrun.1, ih hrun.2]

/-- A run of letters that does not go on is a word. -/
theorem words_append_of_isAlpha (hne : run ≠ [])
    (hrun : ∀ c ∈ run, c.isAlpha = true)
    (hstop : ∀ c ∈ rest.head?, c.isAlpha = false) :
    words (run ++ rest) = String.ofList run :: words rest := by
  have hword : words run = [String.ofList run] := by
    rw [words, List.splitOnP_eq_singleton fun c hc => by simp [hrun c hc]]
    simp [hne]
  cases rest with
  | nil =>
      rw [List.append_nil, hword]
      simp [words, List.splitOnP_nil]
  | cons c rest =>
      rw [words_append_cons (hstop c rfl), words_cons (hstop c rfl), hword]
      rfl

end Text

/-- The words of a text are the names among its tokens. -/
theorem Lexeme.Cut.filterMap_name? [Literal ν] {before : Option Char}
    {index : Nat} {text : List Char} {typed full : List (Lexeme ν)}
    (h : Lexeme.Cut before index text typed full) :
    (full.map Lexeme.token).filterMap Token.name? = Text.words text := by
  induction h with
  | nil => simp [Text.words, List.splitOnP_nil]
  | blank hblank h ih =>
      rw [Text.words_cons (Text.not_isAlpha_of_isBlank hblank), ih]
  | product hjoins h ih => exact ih
  | token hspelled hfree hstop h ih =>
      cases hspelled with
      | number hne hrun hread =>
          rw [Text.words_append_of_not_isAlpha fun c hc =>
            Lexeme.not_isAlpha_of_isNumeric (hrun c hc)]
          exact ih
      | identifier hne hrun =>
          rw [Text.words_append_of_isAlpha hne hrun hstop, ← ih]
          rfl
      | symbol htoken =>
          rw [List.singleton_append,
            Text.words_cons (Token.class_of_ofChar? htoken).2.2, ← ih]
          unfold Token.ofChar? at htoken
          split at htoken <;> cases htoken <;> rfl

/-- The name is that of a variable without a value. -/
def Context.lacks (c : Context) (name : String) : Bool :=
  (c.lookup? name).isNone && isVariable name

/-- The faults of a tree, read off its text. -/
theorem faults_of_parseChars [Literal ν] {text : List Char} {e : Expr ν}
    (h : parseChars text = .ok e) (c : Context) :
    e.faults c =
      ((Text.words text).filter c.lacks).map .unknownIdentifier := by
  obtain ⟨typed, full, depth, hcut, hderives, -⟩ := exists_cut_of_parseChars h
  rw [hderives.faults_eq, hderives.occurrences_eq, variablesOf,
    hcut.filterMap_name?, List.filter_filter]
  rfl

theorem mem_freeVariables_of_parseChars [Literal ν] {text : List Char}
    {e : Expr ν} (h : parseChars text = .ok e) {name : String} :
    name ∈ e.freeVariables ↔
      name ∈ Text.words text ∧ isVariable name = true := by
  obtain ⟨typed, full, depth, hcut, hderives, -⟩ := exists_cut_of_parseChars h
  rw [Expr.mem_freeVariables, hderives.occurrences_eq, variablesOf,
    hcut.filterMap_name?, List.mem_filter]

section Evaluation

variable {text : List Char} {e : Expr Float} (hparse : parseChars text = .ok e)
variable (c : Context)

include hparse

theorem evaluate_eq_ok_of_find?
    (hnone : (Text.words text).find? c.lacks = none) :
    ∃ value, e.evaluate c = .ok value := by
  have hsettled := evaluate_settled c e
  rwa [faults_of_parseChars hparse,
    List.filter_eq_nil_iff.2 (List.find?_eq_none.1 hnone)] at hsettled

theorem evaluate_eq_error_of_find? {name : String}
    (hsome : (Text.words text).find? c.lacks = some name) :
    e.evaluate c = .error (.unknownIdentifier name) := by
  rw [← List.head?_filter] at hsome
  obtain ⟨rest, hfilter⟩ := List.head?_eq_some_iff.1 hsome
  have hsettled := evaluate_settled c e
  rwa [faults_of_parseChars hparse, hfilter] at hsettled

theorem find?_lacks_eq_none_iff :
    (Text.words text).find? c.lacks = none ↔
      ∀ name ∈ e.freeVariables, ∃ value, c.lookup? name = some value := by
  simp only [List.find?_eq_none, mem_freeVariables_of_parseChars hparse,
    Context.lacks, Bool.and_eq_true, Option.isNone_iff_eq_none,
    ← Option.isSome_iff_exists, ← Option.ne_none_iff_isSome]
  constructor
  · rintro h name ⟨hword, hvariable⟩ hunbound
    exact h name hword ⟨hunbound, hvariable⟩
  · rintro h name hword ⟨hunbound, hvariable⟩
    exact h name ⟨hword, hvariable⟩ hunbound

/-- The tree of a text has a value when its free variables have values. -/
theorem evaluate_eq_ok_iff_of_parseChars :
    (∃ value, e.evaluate c = .ok value) ↔
      ∀ name ∈ e.freeVariables, ∃ value, c.lookup? name = some value := by
  rw [← find?_lacks_eq_none_iff hparse]
  constructor
  · rintro ⟨value, hvalue⟩
    cases hfind : (Text.words text).find? c.lacks with
    | none => rfl
    | some name =>
        have herror := evaluate_eq_error_of_find? hparse c hfind
        rw [hvalue] at herror
        cases herror
  · exact evaluate_eq_ok_of_find? hparse c

end Evaluation

/-- A text that parses has a value exactly when its free variables have values.
Otherwise the first variable of the text without one is reported, never a
number of arguments and never the name of a function. -/
theorem evaluate_fails_only_for_unbound_names (text : String) (e : Expr Float)
    (hparse : parse text = .ok e) (c : Context) :
    ((∃ value, Calculator.evaluate text c = .ok value) ↔
      ∀ name ∈ e.freeVariables, ∃ value, c.lookup? name = some value) ∧
    (∀ cause, Calculator.evaluate text c = .error cause →
      ∃ name, (Text.words text.toList).find? c.lacks = some name ∧
        cause = .eval (.unknownIdentifier name)) ∧
    (∀ function expected got, Calculator.evaluate text c ≠
      .error (.eval (.wrongArity function expected got))) ∧
    ∀ f : Elementary, Calculator.evaluate text c ≠
      .error (.eval (.unknownIdentifier f.name)) := by
  have houtcome : Calculator.evaluate text c =
      (e.evaluate c).mapError .eval := by
    rw [Calculator.evaluate, Calculator.read, hparse]
    rfl
  have hreport : ∀ cause, Calculator.evaluate text c = .error cause →
      ∃ name, (Text.words text.toList).find? c.lacks = some name ∧
        cause = .eval (.unknownIdentifier name) := by
    intro cause hcause
    rw [houtcome] at hcause
    cases hfind : (Text.words text.toList).find? c.lacks with
    | none =>
        obtain ⟨value, hvalue⟩ := evaluate_eq_ok_of_find? hparse c hfind
        rw [hvalue] at hcause
        cases hcause
    | some name =>
        rw [evaluate_eq_error_of_find? hparse c hfind] at hcause
        cases hcause
        exact ⟨name, rfl, rfl⟩
  refine ⟨?_, hreport, ?_, ?_⟩
  · rw [← evaluate_eq_ok_iff_of_parseChars hparse c]
    simp only [houtcome, mapError_eq_ok_iff]
  · intro function expected got herror
    obtain ⟨name, -, hname⟩ := hreport _ herror
    cases hname
  · intro f herror
    obtain ⟨name, hfind, hname⟩ := hreport _ herror
    cases hname
    have hlacks := List.find?_some hfind
    have hfunction : isVariable f.name = false := by cases f <;> decide
    rw [Context.lacks, hfunction, Bool.and_false] at hlacks
    cases hlacks

/-- Of two variables without a value the one that stands first in the text is
reported. -/
theorem evaluate_reports_exponent :
    let text := "a*sin(pi)^-b + c"
    let e : Expr Float := .binary .add
      (.binary .mul (.identifier "a")
        (.binary .pow (.call "sin" [.identifier "pi"])
          (.neg (.identifier "b"))))
      (.identifier "c")
    let context : Context := ⟨[("a", 1)], .radians⟩
    parse text = .ok e ∧
      ¬(∃ value, Calculator.evaluate text context = .ok value) ∧
      Calculator.evaluate text context =
        .error (.eval (.unknownIdentifier "b")) := by
  intro text e context
  have hparse : parse text = .ok e := by cbv
  obtain ⟨hok, hreport, -, -⟩ :=
    evaluate_fails_only_for_unbound_names text e hparse context
  have hunbound : ¬(∃ value, Calculator.evaluate text context = .ok value) := by
    rw [hok]
    intro hbound
    obtain ⟨value, hvalue⟩ :=
      hbound "b" (Expr.mem_freeVariables.2 (by decide))
    cases hvalue
  refine ⟨hparse, hunbound, ?_⟩
  cases houtcome : Calculator.evaluate text context with
  | ok value => exact absurd ⟨value, houtcome⟩ hunbound
  | error cause =>
      obtain ⟨name, hfind, rfl⟩ := hreport cause houtcome
      have hfirst : (Text.words text.toList).find? context.lacks =
          some "b" := by decide
      rw [hfirst] at hfind
      cases hfind
      rfl

end SciCalc
