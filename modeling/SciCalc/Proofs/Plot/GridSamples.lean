import SciCalc.Proofs.Expression.Dependence
import SciCalc.Proofs.Plot.Sampling

/-!
# Samples over a grid

A sampling that succeeds gives one sample for each point of its grid, in order; one
that fails does so at the first point, or before it when no list can hold so many
samples. What the variable was bound to before has no part in it. Over the rational
numbers the last point of the grid needs no rule of its own, so the grid from the
other end is the same grid backwards, and so are the samples over it.
-/

namespace SciCalc

open Outcome

/-! ## Grids of exact numbers -/

section Grid

variable {n : ℕ} (a b : ℚ)

/-- The last point is where the others lead to. -/
theorem linspace_eq_map (hn : 2 ≤ n) :
    linspace a b n =
      (List.range n).map fun i : ℕ => a + i * (b - a) / (n - 1) := by
  obtain ⟨m, rfl⟩ : ∃ m, n = m + 2 := ⟨n - 2, by omega⟩
  have hm : ((m + 2 : ℕ) : ℚ) - 1 = m + 1 := by
    push_cast
    ring
  have hpos : (m : ℚ) + 1 ≠ 0 := by positivity
  rw [hm]
  apply List.map_congr_left
  intro i hi
  split
  · next hlast =>
    have hi : (i : ℚ) = m + 1 := by
      rw [hlast]
      push_cast
      ring
    rw [hi, mul_div_cancel_left₀ _ hpos, add_sub_cancel]
  · have hstep : linstep a b (m + 2) = (b - a) / ((m + 1 : ℕ) : ℚ) := rfl
    rw [hstep, Nat.cast_add, Nat.cast_one, mul_div_assoc]
    rfl

/-- The grid from the other end. -/
theorem linspace_reverse (hn : 2 ≤ n) :
    linspace b a n = (linspace a b n).reverse := by
  rw [linspace_eq_map a b hn, linspace_eq_map b a hn]
  apply List.ext_getElem
  · simp
  · intro i hi _
    have hi' : i < n := by simpa using hi
    have hplace : n - 1 - i + i = n - 1 := by omega
    have hn' : (n : ℚ) - 1 ≠ 0 := by
      have h2 : (2 : ℚ) ≤ n := by exact_mod_cast hn
      linarith
    have hcast : ((n - 1 - i : ℕ) : ℚ) = n - 1 - i := by
      rw [Nat.cast_sub (by omega), Nat.cast_sub (by omega), Nat.cast_one]
    simp only [List.getElem_reverse, List.getElem_map, List.getElem_range,
      List.length_map, List.length_range, hcast]
    field_simp
    ring

theorem head?_linspace (hn : 2 ≤ n) : (linspace a b n).head? = some a := by
  obtain ⟨m, rfl⟩ : ∃ m, n = m + 2 := ⟨n - 2, by omega⟩
  rw [linspace_eq_map a b hn, List.range_succ_eq_map]
  simp

theorem getLast?_linspace (hn : 2 ≤ n) :
    (linspace a b n).getLast? = some b := by
  rw [← List.head?_reverse, ← linspace_reverse a b hn, head?_linspace b a hn]

end Grid

/-! ## Samples of a function of exact numbers -/

section Exact

variable {ε : Type} (g : ℚ → Except ε ℚ) {n : ℕ}

/-- The samples of a function without a memory. -/
def exactSamples (a b : ℚ) (n : ℕ) : Except ε (List (Sample ℚ)) :=
  Id.run (samplesAt (fun x => pure (g x)) (linspace a b n))

theorem samplesAt_exact (xs : List ℚ) :
    Id.run (samplesAt (fun x => pure (g x)) xs) =
      xs.mapM fun x => (g x).map (Sample.ofValue x) := by
  induction xs with
  | nil => rfl
  | cons x xs ih =>
      rw [List.mapM_cons, ← ih, samplesAt]
      simp only [pure_bind]
      cases g x with
      | error cause => rfl
      | ok y =>
          change (Id.run (samplesAt (fun x => pure (g x)) xs)).map _ = _
          cases Id.run (samplesAt (fun x => pure (g x)) xs) <;> rfl

/-- Where a call fails at every point or at none, the samples from the other end
are the same ones backwards. -/
theorem exactSamples_reverse
    (hfails : ∀ x y cause, g x = .error cause → g y = .error cause)
    (a b : ℚ) (hn : 2 ≤ n) :
    exactSamples g b a n = (exactSamples g a b n).map List.reverse := by
  rw [exactSamples, exactSamples, samplesAt_exact, samplesAt_exact,
    linspace_reverse a b hn]
  apply mapM_reverse
  intro x y cause hx
  rw [map_eq_error_iff] at hx ⊢
  exact hfails x y cause hx

end Exact

/-! ## Samples of an expression -/

namespace Expr

variable {e : Expr Float} {parameter : String} {c d : Context}
variable {low high : Float} {count : ℕ}

/-- A point where the expression has a finite value, and a gap where its value is
not finite. -/
def HasSample (e : Expr Float) (parameter : String) (c : Context) (x : Float)
    (sample : Sample Float) : Prop :=
  ∃ y, e.evaluate (c.bind parameter x) = .ok y ∧
    sample = if y.isFinite then .point x y else .gap x

theorem hasSample_iff {x : Float} {sample : Sample Float} :
    e.HasSample parameter c x sample ↔
      e.sampleAt parameter c x = .ok sample := by
  rw [sampleAt, map_eq_ok_iff]
  constructor
  · rintro ⟨y, hy, rfl⟩
    exact ⟨y, hy, rfl⟩
  · rintro ⟨y, hy, rfl⟩
    exact ⟨y, hy, rfl⟩

theorem forall₂_hasSample_unique {xs : List Float}
    {samples samples' : List (Sample Float)}
    (h : List.Forall₂ (e.HasSample parameter c) xs samples)
    (h' : List.Forall₂ (e.HasSample parameter c) xs samples') :
    samples = samples' := by
  have hunique : Relator.RightUnique (e.HasSample parameter c) := by
    intro x first second hfirst hsecond
    rw [hasSample_iff] at hfirst hsecond
    exact Except.ok.inj (hfirst.symm.trans hsecond)
  exact List.right_unique_forall₂' hunique h h'

theorem HasSample.abscissa_eq {x : Float} {sample : Sample Float}
    (h : e.HasSample parameter c x sample) : sample.abscissa = x := by
  obtain ⟨y, -, rfl⟩ := h
  split <;> rfl

theorem sample_eq_ok_iff (hlow : low.isFinite = true)
    (hhigh : high.isFinite = true) (hcount : count ≤ Sample.limit)
    {samples : List (Sample Float)} :
    e.sample parameter low high count c = .ok samples ↔
      List.Forall₂ (e.HasSample parameter c) (linspace low high count)
        samples := by
  rw [sample_eq_of_isFinite hlow hhigh hcount, mapError_eq_ok_iff,
    mapM_eq_ok_iff]
  exact ⟨fun h => h.imp fun _ _ => hasSample_iff.2,
    fun h => h.imp fun _ _ => hasSample_iff.1⟩

theorem map_abscissa_of_forall₂ {xs : List Float}
    {samples : List (Sample Float)}
    (h : List.Forall₂ (e.HasSample parameter c) xs samples) :
    samples.map Sample.abscissa = xs := by
  induction h with
  | nil => rfl
  | cons hx _ ih => rw [List.map_cons, hx.abscissa_eq, ih]

/-- Sampling succeeds at every point, or it fails at the first one. -/
theorem sample_cases (e : Expr Float) (parameter : String) (c : Context)
    (hlow : low.isFinite = true) (hhigh : high.isFinite = true)
    (hcount : count ≤ Sample.limit) :
    (∃ samples, e.sample parameter low high count c = .ok samples ∧
      List.Forall₂ (e.HasSample parameter c) (linspace low high count)
        samples) ∨
    ∃ first rest cause, linspace low high count = first :: rest ∧
      e.evaluate (c.bind parameter first) = .error cause ∧
      e.sample parameter low high count c = .error (.eval cause) := by
  cases hsample : e.sample parameter low high count c with
  | ok samples =>
      exact .inl ⟨samples, rfl,
        (sample_eq_ok_iff hlow hhigh hcount).1 hsample⟩
  | error err =>
      obtain ⟨cause, -, rfl⟩ : ∃ cause, _ ∧ CalcError.eval cause = err := by
        rw [sample_eq_of_isFinite hlow hhigh hcount] at hsample
        exact mapError_eq_error_iff.1 hsample
      obtain ⟨-, -, -, first, rest, hpoints, hfirst⟩ :=
        sample_eq_eval_error_iff.1 hsample
      exact .inr ⟨first, rest, cause, hpoints, hfirst, rfl⟩

/-- Contexts that agree on all other names give the same samples. -/
theorem sample_congr (hmode : c.mode = d.mode)
    (hnames : ∀ name, name ≠ parameter → c.lookup? name = d.lookup? name)
    (low high : Float) (count : ℕ) :
    e.sample parameter low high count c =
      e.sample parameter low high count d := by
  have hagree : ∀ x, (c.bind parameter x).AgreeAt (d.bind parameter x) e.nodes := by
    intro x
    refine ⟨fun name _ _ => ?_, .inl hmode⟩
    by_cases hname : name = parameter
    · rw [hname, Context.lookup?_bind_self, Context.lookup?_bind_self]
    · rw [c.lookup?_bind_of_ne x hname, d.lookup?_bind_of_ne x hname,
        hnames name hname]
  have hsampleAt : e.sampleAt parameter c = e.sampleAt parameter d := by
    funext x
    rw [sampleAt, sampleAt, (hagree x).evaluate_eq]
  by_cases hrange : low.isFinite = true ∧ high.isFinite = true
  · rcases Nat.lt_or_ge Sample.limit count with hlarge | hcount
    · rw [sample_eq_tooLarge hrange.1 hrange.2 hlarge,
        sample_eq_tooLarge hrange.1 hrange.2 hlarge]
    · rw [sample_eq_of_isFinite hrange.1 hrange.2 hcount,
        sample_eq_of_isFinite hrange.1 hrange.2 hcount, hsampleAt]
  · rw [sample_eq_of_not_isFinite hrange, sample_eq_of_not_isFinite hrange]

theorem sample_reverse (hlow : low.isFinite = true)
    (hhigh : high.isFinite = true)
    (hgrid : linspace high low count = (linspace low high count).reverse) :
    e.sample parameter high low count c =
      (e.sample parameter low high count c).map List.reverse := by
  have hfails : ∀ x y cause, e.sampleAt parameter c x = .error cause →
      e.sampleAt parameter c y = .error cause := by
    intro x y cause hx
    rw [sampleAt, map_eq_error_iff] at hx ⊢
    exact evaluate_bind_eq_error hx y
  rcases Nat.lt_or_ge Sample.limit count with hlarge | hcount
  · rw [sample_eq_tooLarge hlow hhigh hlarge, sample_eq_tooLarge hhigh hlow hlarge]
    rfl
  rw [sample_eq_of_isFinite hlow hhigh hcount,
    sample_eq_of_isFinite hhigh hlow hcount, hgrid, mapM_reverse hfails]
  cases (linspace low high count).mapM (e.sampleAt parameter c) <;> rfl

end Expr

/-- Over finite limits, and for as many points as there is room for, sampling gives
one sample for each point of the grid, in order, or it fails as the evaluation
does at the first point; for more points the program stops. What else the context
binds the variable to has no part in it. Over the rational numbers the
grid has equal steps from one limit to the other, and with the limits exchanged
it is the same grid backwards; and over such a grid the samples are the same ones
backwards, those of a function of exact numbers as well as those of an
expression. -/
theorem sampling_covers_grid (e : Expr Float) (parameter : String) (c : Context)
    (low high : Float) (count : ℕ) :
    (low.isFinite = true → high.isFinite = true →
      (count ≤ Sample.limit →
        (∃ samples, e.sample parameter low high count c = .ok samples ∧
          samples.length = count ∧
          samples.map Sample.abscissa = linspace low high count ∧
          List.Forall₂ (e.HasSample parameter c) (linspace low high count)
            samples) ∨
        ∃ first rest cause, 0 < count ∧
          linspace low high count = first :: rest ∧
          e.evaluate (c.bind parameter first) = .error cause ∧
          e.sample parameter low high count c = .error (.eval cause)) ∧
      (Sample.limit < count →
        e.sample parameter low high count c = .error .tooLarge)) ∧
    (∀ d : Context, c.mode = d.mode →
      (∀ name, name ≠ parameter → c.lookup? name = d.lookup? name) →
      e.sample parameter low high count c =
        e.sample parameter low high count d) ∧
    (∀ (a b : ℚ) (n : ℕ), 2 ≤ n →
      linspace a b n =
          ((List.range n).map fun i : ℕ => a + i * (b - a) / (n - 1)) ∧
        (linspace a b n).head? = some a ∧ (linspace a b n).getLast? = some b ∧
        linspace b a n = (linspace a b n).reverse) ∧
    (∀ (ε : Type) (g : ℚ → Except ε ℚ) (a b : ℚ) (n : ℕ), 2 ≤ n →
      (∀ x y cause, g x = .error cause → g y = .error cause) →
        exactSamples g b a n = (exactSamples g a b n).map List.reverse) ∧
    (low.isFinite = true → high.isFinite = true →
      linspace high low count = (linspace low high count).reverse →
      e.sample parameter high low count c =
        (e.sample parameter low high count c).map List.reverse) := by
  refine ⟨?_, ?_, ?_, ?_, ?_⟩
  · intro hlow hhigh
    refine ⟨fun hcount => ?_, Expr.sample_eq_tooLarge hlow hhigh⟩
    have hlength := length_linspace low high count
    rcases e.sample_cases parameter c hlow hhigh hcount with
      ⟨samples, hsamples, hforall⟩ | ⟨first, rest, cause, hpoints, hfirst, herr⟩
    · exact .inl ⟨samples, hsamples, hforall.length_eq.symm.trans hlength,
        Expr.map_abscissa_of_forall₂ hforall, hforall⟩
    · have hpos : 0 < count := by
        rw [← hlength, hpoints]
        exact Nat.succ_pos _
      exact .inr ⟨first, rest, cause, hpos, hpoints, hfirst, herr⟩
  · intro d hmode hnames
    exact Expr.sample_congr hmode hnames low high count
  · intro a b n hn
    exact ⟨linspace_eq_map a b hn, head?_linspace a b hn,
      getLast?_linspace a b hn, linspace_reverse a b hn⟩
  · intro ε g a b n hn hfails
    exact exactSamples_reverse g hfails a b hn
  · intro hlow hhigh hgrid
    exact Expr.sample_reverse hlow hhigh hgrid

/-- The reciprocal has a gap at zero, also where the variable was bound before
and from the other end; a name without a value is no gap. -/
theorem samples_of_reciprocal_over_grid :
    let e : Expr Float := .binary .div (.number 1) (.identifier "x")
    let c := Context.empty .radians
    let samples : List (Sample Float) := [.point (-1) (-1), .gap 0, .point 1 1]
    let square : ℚ → Except EvalError ℚ := fun x => .ok (x * x)
    (e.sample "x" (-1) 1 3 c = .ok samples ∧
      e.sample "x" (-1) 1 3 (c.bind "x" 5) = .ok samples ∧
      e.sample "x" 1 (-1) 3 c = .ok samples.reverse) ∧
    (Expr.identifier "t").sample "x" (-1) 1 3 c =
      .error (.eval (.unknownIdentifier "t")) ∧
    (linspace (0 : ℚ) 1 4).getLast? = some 1 ∧
    exactSamples square 1 0 4 =
      (exactSamples square 0 1 4).map List.reverse := by
  intro e c samples square
  obtain ⟨hcovers, hbefore, hgrid, hexact, hbackwards⟩ :=
    sampling_covers_grid e "x" c (-1) 1 3
  have hlow : (-1 : Float).isFinite = true := by decide +kernel
  have hhigh : (1 : Float).isFinite = true := by decide +kernel
  have hpoints : linspace (-1 : Float) 1 3 = [-1, 0, 1] := by decide +kernel
  have hvalue : ∀ x, e.evaluate (c.bind "x" x) = .ok (1 / x) := fun _ => rfl
  have hforall : List.Forall₂ (e.HasSample "x" c) (linspace (-1) 1 3)
      samples := by
    rw [hpoints]
    refine .cons ⟨_, hvalue _, ?_⟩ (.cons ⟨_, hvalue _, ?_⟩
      (.cons ⟨_, hvalue _, ?_⟩ .nil))
    all_goals decide +kernel
  have hcount : 3 ≤ Sample.limit := by decide
  have hsamples : e.sample "x" (-1) 1 3 c = .ok samples := by
    rcases (hcovers hlow hhigh).1 hcount with
      ⟨found, hfound, -, -, hthose⟩ | ⟨first, -, cause, -, -, hfirst, -⟩
    · rw [hfound, Expr.forall₂_hasSample_unique hthose hforall]
    · rw [hvalue first] at hfirst
      cases hfirst
  have hbound : e.sample "x" (-1) 1 3 (c.bind "x" 5) = .ok samples := by
    rw [← hsamples]
    exact (hbefore (c.bind "x" 5) rfl fun name hname =>
      (c.lookup?_bind_of_ne 5 hname).symm).symm
  have hreversed : e.sample "x" 1 (-1) 3 c = .ok samples.reverse := by
    rw [hbackwards hlow hhigh (by decide +kernel), hsamples]
    rfl
  refine ⟨⟨hsamples, hbound, hreversed⟩, ?_, (hgrid 0 1 4 (by decide)).2.2.1,
    hexact EvalError square 0 1 4 (by decide) ?_⟩
  · have hunbound : ∀ x, (Expr.identifier "t").evaluate (c.bind "x" x) =
        .error (.unknownIdentifier "t") := fun _ => rfl
    obtain ⟨hunboundCovers, -⟩ :=
      sampling_covers_grid (.identifier "t") "x" c (-1) 1 3
    rcases (hunboundCovers hlow hhigh).1 hcount with
      ⟨found, -, -, -, hthose⟩ | ⟨first, -, cause, -, -, hfirst, hsample⟩
    · rw [hpoints] at hthose
      obtain ⟨_, _, ⟨y, hy, -⟩, -, -⟩ := List.forall₂_cons_left_iff.1 hthose
      rw [hunbound] at hy
      cases hy
    · rw [hunbound] at hfirst
      cases hfirst
      exact hsample
  · intro x y cause hx
    cases hx

/-- No evaluation of the expression fails, but there is no list of its samples. -/
theorem samples_beyond_room :
    let e : Expr Float := .identifier "x"
    let c := Context.empty .radians
    (0 : Float).isFinite = true ∧ (1 : Float).isFinite = true ∧
      (∀ x, ∃ y, e.evaluate (c.bind "x" x) = .ok y) ∧
      e.sample "x" 0 1 (10 ^ 18) c = .error .tooLarge ∧
      ¬∃ samples, e.sample "x" 0 1 (10 ^ 18) c = .ok samples := by
  intro e c
  have hlow : (0 : Float).isFinite = true := by decide +kernel
  have hhigh : (1 : Float).isFinite = true := by decide +kernel
  have hlarge : Sample.limit < 10 ^ 18 := by decide
  have hstops : e.sample "x" 0 1 (10 ^ 18) c = .error .tooLarge :=
    Expr.sample_eq_tooLarge hlow hhigh hlarge
  refine ⟨hlow, hhigh, fun x => ⟨x, rfl⟩, hstops, ?_⟩
  rintro ⟨samples, hsamples⟩
  rw [hstops] at hsamples
  cases hsamples

end SciCalc
