import SciCalc.Report.Result
import SciCalc.Text.Table

/-!
# History of calculations

The latest calculations, the newest first. When the history is full the oldest one
is dropped.
-/

namespace SciCalc

structure HistoryEntry where
  expression : String
  result : Float
  /-- the time of day at which it was calculated, as it is shown -/
  time : String

/-- The most entries a history keeps. -/
def historyCapacity : Nat := 10

structure History where
  entries : List HistoryEntry
  length_le : entries.length ≤ historyCapacity

namespace History

def empty : History :=
  ⟨[], Nat.zero_le _⟩

/-- Records a calculation as the newest one. -/
def push (h : History) (entry : HistoryEntry) : History :=
  ⟨(entry :: h.entries).take historyCapacity, List.length_take_le _ _⟩

def length (h : History) : Nat :=
  h.entries.length

def isEmpty (h : History) : Bool :=
  h.entries.isEmpty

def clear (_ : History) : History :=
  empty

/-- The entry of an index; the newest one has index zero. -/
def get? (h : History) (index : Nat) : Option HistoryEntry :=
  h.entries[index]?

/-- The expression of an entry, to be calculated again. -/
def expression? (h : History) (index : Nat) : Option String :=
  (h.get? index).map HistoryEntry.expression

@[simp]
theorem entries_push (h : History) (entry : HistoryEntry) :
    (h.push entry).entries = (entry :: h.entries).take historyCapacity :=
  rfl

def tableHeader : List (List Char) :=
  ["#".toList, "expression".toList, "result".toList, "time".toList]

/-- The history as a table, with the entries numbered from one. -/
def table (h : History) : String :=
  if h.isEmpty then "No calculations yet"
  else
    let rows := h.entries.zipIdx.map fun (entry, index) =>
      [(toString (index + 1)).toList, entry.expression.toList,
        (Report.result entry.result).toList, entry.time.toList]
    String.ofList (Text.Table.render (tableHeader :: rows))

end History

end SciCalc
