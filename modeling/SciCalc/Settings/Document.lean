import SciCalc.Text.Blank
import SciCalc.Text.Lines

/-!
# Settings documents

A document is a list of lines `key: value`. Blank lines, and lines that start with
one of the comment marks, do not count. What is left is read from the front as long
as pairs can be read.
-/

namespace SciCalc.Settings

open SciCalc.Text

/-- The marks that start a comment line. -/
def commentMarks : List (List Char) :=
  [['/', '/'], ['#'], ['%'], [';']]

/-- A line that is neither blank nor a comment. -/
def isRelevant (line : List Char) : Bool :=
  let text := trim line
  !text.isEmpty && commentMarks.all fun mark => !mark.isPrefixOf text

/-- The relevant lines, joined again. -/
def relevantText (document : List Char) : List Char :=
  joinLines ((lines document).filter isRelevant)

def isKeyStart (c : Char) : Bool :=
  c.isAlpha || c == '_'

def isKeyChar (c : Char) : Bool :=
  c.isAlphanum || c == '_'

/-- A blank or a tab. -/
def isSpace (c : Char) : Bool :=
  c == ' ' || c == '\t'

/-- A blank, a tab or a line end. -/
def isSpaceOrBreak (c : Char) : Bool :=
  isSpace c || c == '\r' || c == '\n'

def isBreak (c : Char) : Bool :=
  c == '\r' || c == '\n'

/-- A key from the front, and the rest. -/
def takeKey? : List Char → Option (List Char × List Char)
  | c :: rest =>
    if isKeyStart c then some (c :: rest.takeWhile isKeyChar, rest.dropWhile isKeyChar)
    else none
  | [] => none

/-- The rest of a line, and what follows it. A carriage return has to belong to a
line end. -/
def takeValue? (text : List Char) : Option (List Char × List Char) :=
  let rest := text.dropWhile fun c => !isBreak c
  match rest with
  | '\r' :: '\n' :: _ | '\n' :: _ | [] =>
    some (text.takeWhile fun c => !isBreak c, rest)
  | _ => none

/-- A key, a colon and a value from the front, with the space around them, and the
rest. -/
def takePair? (text : List Char) : Option ((List Char × List Char) × List Char) := do
  let (key, rest) ← takeKey? (text.dropWhile isSpaceOrBreak)
  match rest.dropWhile isSpace with
  | ':' :: rest =>
    let (value, rest) ← takeValue? (rest.dropWhile isSpace)
    return ((key, trim value), rest.dropWhile isSpaceOrBreak)
  | _ => none

/-- Pairs from the front as long as there are any, and the rest. Every pair takes at
least a character, so as many rounds as there are characters suffice. -/
def takePairs : Nat → List Char → List (List Char × List Char) × List Char
  | 0, text => ([], text)
  | rounds + 1, text =>
    match takePair? text with
    | none => ([], text)
    | some (pair, rest) =>
      let (pairs, rest) := takePairs rounds rest
      (pair :: pairs, rest)

/-- The pairs of a document in order, or the first line that holds none. -/
def pairs (document : List Char) : Except (List Char) (List (List Char × List Char)) :=
  let text := relevantText document
  let (found, rest) := takePairs text.length text
  if (trim rest).isEmpty then .ok found
  else .error (trim ((lines rest).headD rest))

end SciCalc.Settings
