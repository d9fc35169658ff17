/-!
# Lines

A text is cut at its line feeds. A carriage return in front of a line feed belongs
to the line end; an empty piece after the last line feed is no line.
-/

namespace SciCalc.Text

/-- The pieces between the places where a mark stands, at least one. -/
def splitAtMark (mark : Char) : List Char → List (List Char)
  | [] => [[]]
  | c :: rest =>
    if c = mark then [] :: splitAtMark mark rest
    else
      match splitAtMark mark rest with
      | [] => [[c]]
      | piece :: pieces => (c :: piece) :: pieces

theorem splitAtMark_ne_nil (mark : Char) (text : List Char) :
    splitAtMark mark text ≠ [] := by
  unfold splitAtMark
  split
  · simp
  · split
    · simp
    · split <;> simp

/-- The pieces between line feeds. -/
def splitAtFeeds (text : List Char) : List (List Char) :=
  splitAtMark '\n' text

theorem splitAtFeeds_ne_nil (text : List Char) : splitAtFeeds text ≠ [] :=
  splitAtMark_ne_nil '\n' text

/-- A line without the carriage return at its end. -/
def dropReturn (line : List Char) : List Char :=
  if line.getLast? = some '\r' then line.dropLast else line

/-- The lines of a text. Only a line that a line feed ends loses its carriage return. -/
def lines (text : List Char) : List (List Char) :=
  let pieces := splitAtFeeds text
  let ended := pieces.dropLast.map dropReturn
  match pieces.getLast? with
  | none | some [] => ended
  | some piece => ended ++ [piece]

/-- Lines with a line feed between any two of them. -/
def joinLines (ls : List (List Char)) : List Char :=
  ['\n'].intercalate ls

end SciCalc.Text
