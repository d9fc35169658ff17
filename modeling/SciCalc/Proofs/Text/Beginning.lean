import Mathlib

/-!
# How texts begin

A text that is put together from others begins as the first of them does, which
is all that it takes to tell messages apart.
-/

namespace SciCalc.Text

/-- The text begins with these characters. -/
abbrev Begins (head text : String) : Prop :=
  head.toList <+: text.toList

theorem begins_append (head rest : String) : Begins head (head ++ rest) :=
  ⟨rest.toList, by rw [String.toList_append]⟩

namespace Begins

variable {head text : String}

theorem append (h : Begins head text) (more : String) :
    Begins head (text ++ more) :=
  h.trans (begins_append text more)

theorem behind (h : Begins head text) (front : String) :
    Begins (front ++ head) (front ++ text) := by
  rw [Begins, String.toList_append, String.toList_append]
  exact (List.prefix_append_right_inj front.toList).2 h

end Begins

end SciCalc.Text
