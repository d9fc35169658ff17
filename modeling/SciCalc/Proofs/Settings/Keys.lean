import SciCalc.Proofs.Text.Beginning
import SciCalc.Settings.Basic

/-!
# Keys of settings

A key names a setting, says which texts it admits as values, and has a complaint
for the others. A pair with a known key sets what the key names and leaves the
rest, or is refused; which of the two does not depend on the settings so far.
-/

namespace SciCalc.Settings

open SciCalc.Text

/-! ## What can be set -/

/-- What a document can set. -/
inductive Key where
  | mode | xLow | xHigh | yLow | yHigh | count | variableName | logLevel
  deriving DecidableEq

namespace Key

def name : Key → String
  | mode => "angle_mode"
  | xLow => "x_min"
  | xHigh => "x_max"
  | yLow => "y_min"
  | yHigh => "y_max"
  | count => "step_count"
  | variableName => "variable"
  | logLevel => "log_level"

/-- The type of the values of a setting. -/
def Value : Key → Type
  | mode => AngleMode
  | xLow | xHigh | yLow | yHigh => Float
  | count => Nat
  | variableName | logLevel => String

/-- A number that is finite. -/
def finite? (value : String) : Option Float :=
  (Decimal.readFloat? value.toList).filter Float.isFinite

/-- The value that a text stands for, if the key admits it. -/
def read? : (k : Key) → String → Option k.Value
  | mode => AngleMode.ofText?
  | xLow | xHigh | yLow | yHigh => finite?
  | count => fun value => Decimal.readWord? value.toList
  | variableName => fun value =>
    if isVariableName value then some value else none
  | logLevel => fun value =>
    if (LogLevel.ofText value.toList).isOk then
      some (String.ofList (lower value.toList))
    else none

/-- The error for a text that the key does not admit. -/
def complaint : Key → String → SettingsError
  | mode, value => .mode value
  | xLow, value => .number "x_min" value
  | xHigh, value => .number "x_max" value
  | yLow, value => .number "y_min" value
  | yHigh, value => .number "y_max" value
  | count, value => .count value
  | variableName, value => .variableName value
  | logLevel, value =>
    .logLevel (String.ofList (LogLevel.keyword value.toList))

theorem name_injective : Function.Injective name := by
  intro k k' h
  cases k <;> cases k' <;> first | rfl | exact absurd h (by decide)

end Key

variable {s s' : Settings} {k k' : Key}

/-- The value of a setting. -/
def get (s : Settings) : (k : Key) → k.Value
  | .mode => s.mode
  | .xLow => s.x.low
  | .xHigh => s.x.high
  | .yLow => s.y.low
  | .yHigh => s.y.high
  | .count => s.count
  | .variableName => s.variableName
  | .logLevel => s.logLevel

/-- The settings with another value for one of them. -/
def put (s : Settings) : (k : Key) → k.Value → Settings
  | .mode, mode => { s with mode }
  | .xLow, v => { s with x := { s.x with low := v } }
  | .xHigh, v => { s with x := { s.x with high := v } }
  | .yLow, v => { s with y := { s.y with low := v } }
  | .yHigh, v => { s with y := { s.y with high := v } }
  | .count, count => { s with count }
  | .variableName, variableName => { s with variableName }
  | .logLevel, logLevel => { s with logLevel }

theorem get_put_self (s : Settings) (k : Key) (v : k.Value) :
    (s.put k v).get k = v := by
  cases k <;> rfl

theorem get_put_of_ne (s : Settings) (v : k.Value) (hne : k' ≠ k) :
    (s.put k v).get k' = s.get k' := by
  cases k <;> cases k' <;> first | rfl | exact absurd rfl hne

theorem ext_get (h : ∀ k, s.get k = s'.get k) : s = s' := by
  obtain ⟨mode, ⟨xLow, xHigh⟩, ⟨yLow, yHigh⟩, count, variableName, logLevel⟩ := s
  rw [Settings.mk.injEq, Span.mk.injEq, Span.mk.injEq]
  exact ⟨h .mode, ⟨h .xLow, h .xHigh⟩, ⟨h .yLow, h .yHigh⟩, h .count,
    h .variableName, h .logLevel⟩

/-! ## One pair -/

theorem number_eq (key value : String) :
    number key value =
      match Key.finite? value with
      | some v => .ok v
      | none => .error (.number key value) := by
  rw [number, Key.finite?]
  cases Decimal.readFloat? value.toList with
  | none => rfl
  | some v =>
      rw [Option.filter]
      dsimp only
      split <;> rfl

theorem number_eq_ok_iff {key value : String} {v : Float} :
    number key value = .ok v ↔ Key.finite? value = some v := by
  rw [number_eq]
  cases Key.finite? value <;> simp

/-- A pair with a known key sets it, or it is refused with a complaint. -/
theorem set_name (s : Settings) (k : Key) (value : String) :
    s.set k.name value =
      match k.read? value with
      | some v => .ok (s.put k v)
      | none => .error (k.complaint value) := by
  cases k with
  | xLow | xHigh | yLow | yHigh =>
      simp only [Settings.set, Key.name, Key.read?, Key.complaint, put, number_eq]
      cases Key.finite? value <;> rfl
  | mode =>
      simp only [Settings.set, Key.name, Key.read?, Key.complaint, put]
      cases AngleMode.ofText? value <;> rfl
  | count =>
      simp only [Settings.set, Key.name, Key.read?, Key.complaint, put]
      cases Decimal.readWord? value.toList <;> rfl
  | variableName =>
      simp only [Settings.set, Key.name, Key.read?, Key.complaint, put]
      split <;> rfl
  | logLevel =>
      simp only [Settings.set, Key.name, Key.read?, Key.complaint, put]
      rw [LogLevel.ofText]
      cases LogLevel.words.lookup (LogLevel.keyword value.toList) <;> rfl

theorem set_of_read {v : k.Value} {value : String}
    (hread : k.read? value = some v) (s : Settings) :
    s.set k.name value = .ok (s.put k v) := by
  rw [set_name, hread]

theorem set_unknown (s : Settings) {key : String} (h : ∀ k : Key, k.name ≠ key)
    (value : String) : s.set key value = .error (.unknownKey key) := by
  unfold Settings.set
  split
  · exact absurd rfl (h .mode)
  · exact absurd rfl (h .xLow)
  · exact absurd rfl (h .xHigh)
  · exact absurd rfl (h .yLow)
  · exact absurd rfl (h .yHigh)
  · exact absurd rfl (h .count)
  · exact absurd rfl (h .variableName)
  · exact absurd rfl (h .logLevel)
  · rfl

/-- The key is known, and it admits the value. -/
def Admits (key value : String) : Prop :=
  ∃ (k : Key) (v : k.Value), k.name = key ∧ k.read? value = some v

/-- The error for a pair that is not admitted. -/
inductive Refuses : String → String → SettingsError → Prop
  | unknown {key value : String} (hkey : ∀ k : Key, k.name ≠ key) :
      Refuses key value (.unknownKey key)
  | value {k : Key} {value : String} (hvalue : k.read? value = none) :
      Refuses k.name value (k.complaint value)

section Pairs

variable {key value : String} {err : SettingsError}

/-- A pair is admitted or refused, whatever the settings are. -/
theorem set_cases (s : Settings) (key value : String) :
    (∃ (k : Key) (v : k.Value), k.name = key ∧ k.read? value = some v ∧
      s.set key value = .ok (s.put k v)) ∨
    ∃ err, Refuses key value err ∧ s.set key value = .error err := by
  by_cases hkey : ∃ k : Key, k.name = key
  · obtain ⟨k, rfl⟩ := hkey
    have hset := s.set_name k value
    cases hread : k.read? value with
    | some v =>
        rw [hread] at hset
        exact .inl ⟨k, v, rfl, hread, hset⟩
    | none =>
        rw [hread] at hset
        exact .inr ⟨_, .value hread, hset⟩
  · rw [not_exists] at hkey
    exact .inr ⟨_, .unknown hkey, s.set_unknown hkey value⟩

theorem Refuses.not_admits (h : Refuses key value err) : ¬Admits key value := by
  rintro ⟨k, v, hname, hread⟩
  cases h with
  | unknown hkey => exact hkey k hname
  | value hvalue =>
      cases Key.name_injective hname
      rw [hvalue] at hread
      cases hread

theorem Refuses.set_eq (h : Refuses key value err) (s : Settings) :
    s.set key value = .error err := by
  cases h with
  | unknown hkey => exact s.set_unknown hkey value
  | value hvalue => rw [set_name, hvalue]

theorem set_eq_error_iff :
    s.set key value = .error err ↔ Refuses key value err := by
  constructor
  · intro h
    rcases s.set_cases key value with ⟨k, v, -, -, hset⟩ | ⟨err', hrefuses, hset⟩
    · rw [h] at hset
      cases hset
    · rw [h] at hset
      cases hset
      exact hrefuses
  · intro h
    exact h.set_eq s

theorem exists_set_eq_ok_iff :
    (∃ next, s.set key value = .ok next) ↔ Admits key value := by
  constructor
  · rintro ⟨next, h⟩
    rcases s.set_cases key value with ⟨k, v, hname, hread, -⟩ | ⟨err, -, hset⟩
    · exact ⟨k, v, hname, hread⟩
    · rw [h] at hset
      cases hset
  · rintro ⟨k, v, rfl, hread⟩
    exact ⟨_, set_of_read hread s⟩

/-- A complaint begins with the name of its key. -/
theorem Key.begins_complaint (k : Key) (value : String) :
    Begins k.name (k.complaint value).message := by
  cases k with
  | mode =>
      have hhead : Begins "angle_mode" "angle_mode: expected deg or rad, got '" :=
        by decide
      exact (hhead.append value).append "'"
  | xLow | xHigh | yLow | yHigh =>
      exact ((begins_append _ ": expected a finite number, got '").append
        value).append "'"
  | count =>
      have hhead : Begins "step_count"
          "step_count: expected a non-negative integer, got '" := by decide
      exact (hhead.append value).append "'"
  | variableName =>
      have hhead : Begins "variable" ("variable: expected a name made of " ++
          "letters that is not a function or constant, got '") := by decide
      exact (hhead.append value).append "'"
  | logLevel =>
      have hhead : Begins "log_level" "log_level: " := by decide
      exact hhead.append _

/-- The error names the key. -/
theorem Refuses.key_isInfix (h : Refuses key value err) :
    key.toList <:+: err.message.toList := by
  cases h with
  | unknown hkey =>
      refine ⟨"unknown settings key '".toList, "'".toList, ?_⟩
      rw [← String.toList_append, ← String.toList_append]
      rfl
  | @value k value hvalue => exact (k.begins_complaint value).isInfix

end Pairs

end SciCalc.Settings
