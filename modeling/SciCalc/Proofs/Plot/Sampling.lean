import SciCalc.Plot.Sampling
import SciCalc.Proofs.Outcome

/-!
# Samples of an expression

A curve rebinds its variable at every call and remembers nothing else, so its
samples are those of the expression at each point by itself. Sampling over a
finite range succeeds when the expression has a value at every point, and gives
as many samples as were asked for, if a list can hold so many.
-/

namespace SciCalc

open Outcome

/-- Only the last binding of a name counts. -/
theorem Context.bind_bind (c : Context) (name : String) (x y : Float) :
    (c.bind name x).bind name y = c.bind name y := by
  simp [bind, unbind]

theorem length_linspace {R : Type} [Scalar R] (start stop : R) (count : Nat) :
    (linspace start stop count).length = count := by
  unfold linspace
  split
  · rfl
  · rfl
  · rw [List.length_map, List.length_range]

namespace Expr

variable (e : Expr Float) (parameter : String) (c : Context)

/-- The sample of an expression at one point. -/
def sampleAt (x : Float) : Except EvalError (Sample Float) :=
  (e.evaluate (c.bind parameter x)).map (Sample.ofValue x)

/-- A binding of the parameter is not seen. -/
theorem sampleAt_bind (x : Float) :
    e.sampleAt parameter (c.bind parameter x) = e.sampleAt parameter c := by
  funext y
  rw [sampleAt, Context.bind_bind, sampleAt]

/-- One call, and the other points in the context that it leaves. -/
theorem samplesAt_cons_call (x : Float) (xs : List Float) :
    (samplesAt Curve.call (x :: xs) ⟨e, parameter, c⟩).1 =
      (e.sampleAt parameter c x >>= fun first =>
        (samplesAt Curve.call xs ⟨e, parameter, c.bind parameter x⟩).1 >>=
          fun rest => .ok (first :: rest)) := by
  rw [samplesAt, sampleAt]
  simp only [bind, StateT.bind, Curve.call_eq]
  cases e.evaluate (c.bind parameter x) with
  | error cause => rfl
  | ok value =>
      simp only [StateT.bind]
      cases samplesAt Curve.call xs ⟨e, parameter, c.bind parameter x⟩ with
      | mk outcome curve => cases outcome <;> rfl

/-- The induction is on the points; a call leaves the curve in a context that
the next one does not tell from the first. -/
theorem samplesAt_call (xs : List Float) :
    (samplesAt Curve.call xs ⟨e, parameter, c⟩).1 =
      xs.mapM (e.sampleAt parameter c) := by
  induction xs generalizing c with
  | nil => rfl
  | cons x xs ih =>
      rw [samplesAt_cons_call, ih, sampleAt_bind, List.mapM_cons]
      rfl

variable {e parameter c}

theorem sample_eq_of_isFinite {low high : Float} (hlow : low.isFinite = true)
    (hhigh : high.isFinite = true) {count : Nat}
    (hcount : count ≤ Sample.limit) :
    e.sample parameter low high count c =
      ((linspace low high count).mapM (e.sampleAt parameter c)).mapError
        .eval := by
  rw [← samplesAt_call]
  rw [sample, if_neg (by simp [hlow, hhigh]), if_neg (Nat.not_lt.2 hcount)]
  rfl

/-- Nothing is evaluated when there is no room for the samples. -/
theorem sample_eq_tooLarge {low high : Float} (hlow : low.isFinite = true)
    (hhigh : high.isFinite = true) {count : Nat}
    (hcount : Sample.limit < count) :
    e.sample parameter low high count c = .error .tooLarge := by
  rw [sample, if_neg (by simp [hlow, hhigh]), if_pos hcount]

theorem sample_eq_of_not_isFinite {low high : Float}
    (h : ¬(low.isFinite = true ∧ high.isFinite = true)) (count : Nat) :
    e.sample parameter low high count c =
      .error (.range (.sampling low high)) := by
  rw [sample, if_pos]
  simpa [Decidable.or_iff_not_imp_left] using h

theorem exists_sample {low high : Float} (hlow : low.isFinite = true)
    (hhigh : high.isFinite = true) {count : Nat}
    (hcount : count ≤ Sample.limit)
    (hvalue : ∀ x, ∃ value, e.evaluate (c.bind parameter x) = .ok value) :
    ∃ samples, e.sample parameter low high count c = .ok samples ∧
      samples.length = count := by
  obtain ⟨samples, hsamples⟩ : ∃ samples, List.Forall₂
      (fun x y => e.sampleAt parameter c x = .ok y)
      (linspace low high count) samples := by
    apply exists_forall₂
    intro x _
    obtain ⟨value, hx⟩ := hvalue x
    exact ⟨_, by rw [sampleAt, hx]; rfl⟩
  refine ⟨samples, ?_, ?_⟩
  · rw [sample_eq_of_isFinite hlow hhigh hcount, mapError_eq_ok_iff]
    exact mapM_eq_ok_iff.2 hsamples
  · rw [← hsamples.length_eq, length_linspace]

end Expr

end SciCalc
