import SciCalc.Proofs.Expression.TokenBoundary

/-!
# White space around a text

White space at the ends of a text does not count. Behind the text nothing is
left to move, and in front of it everything moves; so a text has the tree that
it has without its outer white space, or the same error, whose position alone
counts the white space in front.
-/

namespace SciCalc

open SciCalc.Outcome

variable {ν : Type}

/-- An outcome whose positions stay is the same outcome. -/
theorem relocated_id {α : Type} (outcome : Except (ParseError ν) α) :
    relocated id id outcome = outcome := by
  cases outcome with
  | ok value => rfl
  | error err =>
      obtain ⟨reason, position⟩ := err
      cases position <;> rfl

section Parsing

variable [Literal ν] {text front back : List Char} {e : Expr ν}

/-- White space around a text moves its error, and nothing else. -/
theorem parseChars_surrounded (hfront : ∀ c ∈ front, Text.isBlank c = true)
    (hback : ∀ c ∈ back, Text.isBlank c = true) (text : List Char) :
    parseChars (ν := ν) (front ++ text ++ back) =
      relocated (· + front.length) id (parseChars text) := by
  have hbehind : parseChars (ν := ν) (front ++ text ++ back ++ []) =
      relocated id id (parseChars (front ++ text ++ [])) :=
    parseChars_gap hback (by rintro c - d ⟨⟩) (fun _ _ => rfl)
      (fun p hp hp' => absurd hp' (by simpa using hp))
  have hbefore : parseChars (ν := ν) ([] ++ front ++ text) =
      relocated (· + front.length) id (parseChars ([] ++ text)) :=
    parseChars_gap hfront (by rintro c ⟨⟩) (fun _ hp => absurd hp (by simp))
      (fun _ _ _ => rfl)
  rw [List.append_nil, List.append_nil, relocated_id] at hbehind
  rw [hbehind]
  exact hbefore

/-- The white space in front of a text is not counted in the error of the text
without it. -/
theorem parseChars_eq_trim (text : List Char) :
    parseChars (ν := ν) text =
      relocated (· + Text.indentation text) id
        (parseChars (Text.trim text)) := by
  obtain ⟨back, htext, hback⟩ := Text.exists_trim text
  conv_lhs => rw [htext]
  exact parseChars_surrounded (fun c hc => List.mem_takeWhile_imp hc) hback _

/-- A text has a tree exactly when it has this tree without the white space at
its ends. -/
theorem parseChars_trim_eq_ok_iff :
    parseChars (Text.trim text) = .ok e ↔ parseChars text = .ok e := by
  rw [parseChars_eq_trim text, relocated, mapError_eq_ok_iff, Except.map_id]
  rfl

end Parsing

end SciCalc
