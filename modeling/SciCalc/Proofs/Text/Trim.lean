import Mathlib
import SciCalc.Text.Blank

/-!
# Runs and white space at the ends of a text

A run of characters of one class ends where the next piece of a text begins
with another character. Trimming takes away the run of white space at either
end, and what a run of white space leaves is trimmed to the same text.
-/

namespace SciCalc.Text

section Runs

variable {α : Type} {f g : α → Bool} {xs ys : List α}

/-- A run that reaches the cut stops there. -/
theorem takeWhile_append_of_stops
    (hstop : (∀ x ∈ xs, f x = true) → ∀ y ∈ ys.head?, f y = false) :
    (xs ++ ys).takeWhile f = xs.takeWhile f ∧
      (xs ++ ys).dropWhile f = xs.dropWhile f ++ ys := by
  induction xs with
  | nil =>
      have hhead := hstop (by simp)
      cases ys with
      | nil => exact ⟨rfl, rfl⟩
      | cons y ys =>
          have hy := hhead y rfl
          simp [hy]
  | cons x xs ih =>
      rw [List.cons_append, List.takeWhile_cons, List.takeWhile_cons,
        List.dropWhile_cons, List.dropWhile_cons]
      cases hx : f x with
      | false => exact ⟨rfl, rfl⟩
      | true =>
          obtain ⟨htake, hdrop⟩ := ih fun hxs =>
            hstop (List.forall_mem_cons.2 ⟨hx, hxs⟩)
          exact ⟨by simp [htake], hdrop⟩

/-- A run of a larger class takes in a run of the smaller one. -/
theorem dropWhile_dropWhile_of_imp (h : ∀ x, f x = true → g x = true)
    (xs : List α) : (xs.dropWhile f).dropWhile g = xs.dropWhile g := by
  induction xs with
  | nil => rfl
  | cons x xs ih =>
      rw [List.dropWhile_cons]
      cases hx : f x with
      | false => rfl
      | true => simp [ih, h x hx]

end Runs

/-- How many characters of white space a text begins with. -/
def indentation (text : List Char) : Nat :=
  (text.takeWhile isBlank).length

/-- The white space that trimming takes away stands at the ends. -/
theorem exists_trim (text : List Char) :
    ∃ back, text = text.takeWhile isBlank ++ trim text ++ back ∧
      ∀ c ∈ back, isBlank c = true := by
  let body := text.dropWhile isBlank
  refine ⟨(body.reverse.takeWhile isBlank).reverse, ?_, ?_⟩
  · have hbody : trim text ++ (body.reverse.takeWhile isBlank).reverse =
        body := by
      rw [trim, ← List.reverse_append, List.takeWhile_append_dropWhile,
        List.reverse_reverse]
    rw [List.append_assoc, hbody, List.takeWhile_append_dropWhile]
  · intro c hc
    exact List.mem_takeWhile_imp (List.mem_reverse.1 hc)

/-- Nothing is left of a text exactly when it is white space only. -/
theorem trim_eq_nil_iff {text : List Char} :
    trim text = [] ↔ ∀ c ∈ text, isBlank c = true := by
  constructor
  · intro hnil
    obtain ⟨back, htext, hback⟩ := exists_trim text
    rw [hnil, List.append_nil] at htext
    rw [htext]
    intro c hc
    exact (List.mem_append.1 hc).elim List.mem_takeWhile_imp (hback c)
  · intro h
    rw [trim, List.dropWhile_eq_nil_iff.2 h]
    rfl

/-- White space that has been taken from the front is not missed. -/
theorem trim_dropWhile {f : Char → Bool}
    (h : ∀ c, f c = true → isBlank c = true) (text : List Char) :
    trim (text.dropWhile f) = trim text := by
  rw [trim, dropWhile_dropWhile_of_imp h, trim]

end SciCalc.Text
