import Mathlib

/-!
# Outcomes of calculations that may fail

A calculation made of steps succeeds exactly when every step does. These
lemmas take such a calculation apart without unfolding the way it was written.
-/

namespace SciCalc.Outcome

variable {ε α β : Type}

@[simp]
theorem pure_eq_ok (value : α) : (pure value : Except ε α) = .ok value := rfl

@[simp]
theorem throw_eq_error (cause : ε) : (throw cause : Except ε α) = .error cause :=
  rfl

@[simp]
theorem ok_bind (value : α) (next : α → Except ε β) :
    ((.ok value : Except ε α) >>= next) = next value := rfl

@[simp]
theorem error_bind (cause : ε) (next : α → Except ε β) :
    ((.error cause : Except ε α) >>= next) = .error cause := rfl

@[simp]
theorem bind_ok (first : Except ε α) : (first >>= Except.ok) = first := by
  cases first <;> rfl

theorem bind_eq_ok_iff {first : Except ε α} {next : α → Except ε β}
    {result : β} :
    (first >>= next) = .ok result ↔
      ∃ value, first = .ok value ∧ next value = .ok result := by
  cases first with
  | error cause => simp
  | ok value => simp

theorem bind_eq_error_iff {first : Except ε α} {next : α → Except ε β}
    {cause : ε} :
    (first >>= next) = .error cause ↔
      first = .error cause ∨
        ∃ value, first = .ok value ∧ next value = .error cause := by
  cases first with
  | error cause => simp
  | ok value => simp

@[simp]
theorem mapError_eq_ok_iff {ε' : Type} {first : Except ε α} {f : ε → ε'}
    {value : α} : first.mapError f = .ok value ↔ first = .ok value := by
  cases first <;> simp [Except.mapError]

theorem mapError_eq_error_iff {ε' : Type} {first : Except ε α} {f : ε → ε'}
    {cause : ε'} :
    first.mapError f = .error cause ↔
      ∃ inner, first = .error inner ∧ f inner = cause := by
  cases first <;> simp [Except.mapError]

theorem map_eq_error_iff {first : Except ε α} {f : α → β} {cause : ε} :
    first.map f = .error cause ↔ first = .error cause := by
  cases first <;> simp [Except.map]

theorem map_eq_ok_iff {first : Except ε α} {f : α → β} {result : β} :
    first.map f = .ok result ↔ ∃ value, first = .ok value ∧ f value = result := by
  cases first <;> simp [Except.map]

theorem exists_eq_ok_of_isOk {first : Except ε α} (h : first.isOk = true) :
    ∃ value, first = .ok value := by
  cases first with
  | error cause => cases h
  | ok value => exact ⟨value, rfl⟩

/-- A failure is one of a kind, and a result is a good one. -/
def Meets (kind : ε → Prop) (good : α → Prop) : Except ε α → Prop
  | .ok value => good value
  | .error cause => kind cause

theorem Meets.bind {kind : ε → Prop} {good : α → Prop} {good' : β → Prop}
    {first : Except ε α} {next : α → Except ε β}
    (hfirst : Meets kind good first)
    (hnext : ∀ value, good value → Meets kind good' (next value)) :
    Meets kind good' (first >>= next) := by
  cases first with
  | error cause => exact hfirst
  | ok value => exact hnext value hfirst

/-- Two calculations succeed under the same condition and have the same result
then; otherwise both of them fail. -/
def AgreeWhen (fits : Prop) (first second : Except ε α) : Prop :=
  (∀ result, first = .ok result ↔ second = .ok result) ∧
    ((∃ result, first = .ok result) ↔ fits)

theorem AgreeWhen.intro {fits : Prop} {first second : Except ε α}
    (hfirst : ∀ result, first = .ok result → fits)
    (hsecond : ∀ result, second = .ok result → fits)
    (hboth : fits → ∃ result, first = .ok result ∧ second = .ok result) :
    AgreeWhen fits first second := by
  by_cases hfits : fits
  · obtain ⟨result, rfl, rfl⟩ := hboth hfits
    exact ⟨fun _ => Iff.rfl, iff_of_true ⟨result, rfl⟩ hfits⟩
  · have hfails : ∀ result, first ≠ .ok result :=
      fun result h => hfits (hfirst result h)
    refine ⟨fun result => iff_of_false (hfails result) ?_,
      iff_of_false (not_exists.2 hfails) hfits⟩
    exact fun h => hfits (hsecond result h)

/-- A traversal succeeds when every step does, with their results in order. -/
theorem mapM_eq_ok_iff {step : α → Except ε β} {xs : List α} {ys : List β} :
    xs.mapM step = .ok ys ↔
      List.Forall₂ (fun x y => step x = .ok y) xs ys := by
  induction xs generalizing ys with
  | nil => simp [eq_comm]
  | cons x xs ih =>
      rw [List.mapM_cons, bind_eq_ok_iff, List.forall₂_cons_left_iff]
      constructor
      · rintro ⟨y, hy, h⟩
        obtain ⟨rest, hrest, h⟩ := bind_eq_ok_iff.1 h
        cases h
        exact ⟨y, rest, hy, ih.1 hrest, rfl⟩
      · rintro ⟨y, rest, hy, hrest, rfl⟩
        refine ⟨y, hy, ?_⟩
        rw [ih.2 hrest]
        rfl

/-- A traversal in which every step succeeds. -/
theorem mapM_eq_ok_map {step : α → Except ε β} {xs : List α} {result : α → β}
    (h : ∀ x ∈ xs, step x = .ok (result x)) :
    xs.mapM step = .ok (xs.map result) := by
  rw [mapM_eq_ok_iff, List.forall₂_map_right_iff, List.forall₂_same]
  exact h

/-- A loop over the first numbers in which every round succeeds. -/
theorem foldlM_range_eq_ok {n : ℕ} {step : α → ℕ → Except ε α}
    {next : α → Fin n → α}
    (h : ∀ value (k : Fin n), step value k = .ok (next value k)) (start : α) :
    (List.range n).foldlM step start = .ok (Fin.foldl n next start) := by
  induction n with
  | zero => rfl
  | succ n ih =>
      rw [List.range_succ, List.foldlM_append,
        ih fun value k => h value k.castSucc, ok_bind, Fin.foldl_succ_last]
      simpa using h _ (Fin.last n)

/-- A traversal fails as the first step that fails. -/
theorem mapM_eq_error_iff {step : α → Except ε β} {xs : List α} {cause : ε} :
    xs.mapM step = .error cause ↔
      ∃ before x after, xs = before ++ x :: after ∧
        (∀ y ∈ before, ∃ value, step y = .ok value) ∧
        step x = .error cause := by
  induction xs with
  | nil => simp
  | cons x xs ih =>
      rw [List.mapM_cons, bind_eq_error_iff]
      constructor
      · rintro (hx | ⟨value, hvalue, hrest⟩)
        · exact ⟨[], x, xs, rfl, by simp, hx⟩
        · rcases bind_eq_error_iff.1 hrest with hxs | ⟨values, -, hdone⟩
          · obtain ⟨before, y, after, rfl, hbefore, hy⟩ := ih.1 hxs
            exact ⟨x :: before, y, after, rfl,
              List.forall_mem_cons.2 ⟨⟨value, hvalue⟩, hbefore⟩, hy⟩
          · cases hdone
      · rintro ⟨before, y, after, hxs, hbefore, hy⟩
        cases before with
        | nil =>
            cases hxs
            exact .inl hy
        | cons first before =>
            cases hxs
            rw [List.forall_mem_cons] at hbefore
            obtain ⟨value, hvalue⟩ := hbefore.1
            have hrest := ih.2 ⟨before, y, after, rfl, hbefore.2, hy⟩
            exact .inr ⟨value, hvalue, by rw [hrest]; rfl⟩

/-- Where every step fails alike or none does, a traversal backwards gives the
results backwards. -/
theorem mapM_reverse {step : α → Except ε β}
    (hstep : ∀ x y cause, step x = .error cause → step y = .error cause)
    (xs : List α) :
    xs.reverse.mapM step = (xs.mapM step).map List.reverse := by
  cases hxs : xs.mapM step with
  | ok ys =>
      apply mapM_eq_ok_iff.2
      exact List.forall₂_reverse_iff.2 (mapM_eq_ok_iff.1 hxs)
  | error cause =>
      obtain ⟨before, x, after, rfl, -, hx⟩ := mapM_eq_error_iff.1 hxs
      cases hreverse : (before ++ x :: after).reverse with
      | nil => simp at hreverse
      | cons first rest =>
          rw [List.mapM_cons, hstep x first cause hx]
          rfl

theorem exists_forall₂ {related : α → β → Prop} {xs : List α}
    (h : ∀ x ∈ xs, ∃ y, related x y) : ∃ ys, List.Forall₂ related xs ys := by
  induction xs with
  | nil => exact ⟨[], .nil⟩
  | cons x xs ih =>
      rw [List.forall_mem_cons] at h
      obtain ⟨y, hy⟩ := h.1
      obtain ⟨ys, hys⟩ := ih h.2
      exact ⟨y :: ys, .cons hy hys⟩

theorem exists_of_forall₂ {related : α → β → Prop} {xs : List α} {ys : List β}
    (h : List.Forall₂ related xs ys) : ∀ x ∈ xs, ∃ y, related x y := by
  induction h with
  | nil => exact List.forall_mem_nil _
  | cons hxy _ ih => exact List.forall_mem_cons.2 ⟨⟨_, hxy⟩, ih⟩

end SciCalc.Outcome
