import SciCalc.Proofs.Outcome
import SciCalc.Proofs.Settings.Keys

/-!
# The last value counts

A document sets its pairs one after the other and stops at the first one that is
refused. A pair that is taken changes the setting of its key only, so every
setting has the value of the last pair with its key, and only the order of pairs
with equal keys matters.
-/

namespace SciCalc.Settings

open SciCalc.Outcome

variable {s s' : Settings} {k k' : Key}

/-! ## All pairs -/

/-- The value of the last pair with this key. -/
def last? (found : List (String × String)) (key : String) : Option String :=
  (found.filter fun pair => pair.1 == key).getLast?.map Prod.snd

/-- The setting has the value of the last pair with its key, or it is what it was
at the start if there is none. -/
def Holds (start : Settings) (found : List (String × String)) (s : Settings)
    (k : Key) : Prop :=
  match last? found k.name with
  | some value => k.read? value = some (s.get k)
  | none => s.get k = start.get k

section All

variable {found found' : List (String × String)} {start : Settings}

theorem last?_cons_self (key value : String) (rest : List (String × String)) :
    last? ((key, value) :: rest) key = some ((last? rest key).getD value) := by
  rw [last?, List.filter_cons_of_pos (by simp), List.getLast?_cons, last?]
  cases (rest.filter fun pair => pair.1 == key).getLast? <;> rfl

theorem last?_cons_of_ne {key key' : String} (hne : key ≠ key') (value : String)
    (rest : List (String × String)) :
    last? ((key, value) :: rest) key' = last? rest key' := by
  rw [last?, List.filter_cons_of_neg (by simpa using hne), last?]

/-- A setting that holds behind a pair and the others behind it. -/
theorem Holds.cons {v : k.Value} {value : String}
    (hread : k.read? value = some v)
    (h : Holds (start.put k v) found s k') :
    Holds start ((k.name, value) :: found) s k' := by
  unfold Holds at h ⊢
  by_cases hkey : k' = k
  · subst hkey
    rw [last?_cons_self]
    cases hlast : last? found k'.name with
    | some other =>
        rw [hlast] at h
        exact h
    | none =>
        rw [hlast, get_put_self] at h
        rw [h]
        exact hread
  · have hname : k.name ≠ k'.name :=
      fun heq => hkey (Key.name_injective heq).symm
    rw [last?_cons_of_ne hname]
    rwa [get_put_of_ne _ _ hkey] at h

theorem holds_of_setAll (h : start.setAll found = .ok s) :
    (∀ pair ∈ found, Admits pair.1 pair.2) ∧ ∀ k, Holds start found s k := by
  induction found generalizing start with
  | nil =>
      cases h
      exact ⟨List.forall_mem_nil _, fun k => rfl⟩
  | cons pair rest ih =>
      obtain ⟨key, value⟩ := pair
      obtain ⟨next, hset, hrest⟩ := bind_eq_ok_iff.1 h
      rcases start.set_cases key value with ⟨k, v, rfl, hread, hput⟩ |
        ⟨err, -, herr⟩
      · rw [hset] at hput
        cases hput
        obtain ⟨hadmits, hholds⟩ := ih hrest
        exact ⟨List.forall_mem_cons.2 ⟨⟨k, v, rfl, hread⟩, hadmits⟩,
          fun k' => (hholds k').cons hread⟩
      · rw [hset] at herr
        cases herr

/-- Pairs fail as the first one of them that is refused. -/
theorem setAll_eq_error_iff {err : SettingsError} :
    start.setAll found = .error err ↔
      ∃ before key value after, found = before ++ (key, value) :: after ∧
        (∀ pair ∈ before, Admits pair.1 pair.2) ∧ Refuses key value err := by
  induction found generalizing start with
  | nil => simp [setAll]
  | cons pair rest ih =>
      obtain ⟨key, value⟩ := pair
      rw [setAll, bind_eq_error_iff, set_eq_error_iff]
      constructor
      · rintro (hrefuses | ⟨next, hset, hrest⟩)
        · exact ⟨[], key, value, rest, rfl, List.forall_mem_nil _, hrefuses⟩
        · obtain ⟨before, key', value', after, rfl, hbefore, hrefuses⟩ :=
            ih.1 hrest
          have hadmits := exists_set_eq_ok_iff.1 ⟨next, hset⟩
          exact ⟨(key, value) :: before, key', value', after, rfl,
            List.forall_mem_cons.2 ⟨hadmits, hbefore⟩, hrefuses⟩
      · rintro ⟨before, key', value', after, hfound, hbefore, hrefuses⟩
        cases before with
        | nil =>
            cases hfound
            exact .inl hrefuses
        | cons first before =>
            cases hfound
            rw [List.forall_mem_cons] at hbefore
            obtain ⟨next, hset⟩ := exists_set_eq_ok_iff.2 hbefore.1
            exact .inr ⟨next, hset, ih.2 ⟨before, key', value', after, rfl,
              hbefore.2, hrefuses⟩⟩

/-! ## Rearranged pairs -/

/-- The pairs of every key are the same and stand in the same order; pairs with
different keys may have changed places. -/
def SameByKey (found found' : List (String × String)) : Prop :=
  ∀ key, (found.filter fun pair => pair.1 == key) =
    found'.filter fun pair => pair.1 == key

theorem SameByKey.mem (h : SameByKey found found') {pair : String × String}
    (hpair : pair ∈ found') : pair ∈ found := by
  have hmem : pair ∈ found'.filter fun other => other.1 == pair.1 :=
    List.mem_filter.2 ⟨hpair, by simp⟩
  rw [← h pair.1] at hmem
  exact (List.mem_filter.1 hmem).1

theorem SameByKey.last?_eq (h : SameByKey found found') (key : String) :
    last? found key = last? found' key := by
  rw [last?, last?, h key]

/-- Two settings that hold behind the same pairs are the same. -/
theorem eq_of_holds (h : ∀ k, Holds start found s k)
    (h' : ∀ k, Holds start found s' k) : s = s' := by
  apply ext_get
  intro k
  have hk := h k
  have hk' := h' k
  unfold Holds at hk hk'
  cases hlast : last? found k.name with
  | some value =>
      rw [hlast] at hk hk'
      exact Option.some.inj (hk.symm.trans hk')
  | none =>
      rw [hlast] at hk hk'
      exact hk.trans hk'.symm

theorem setAll_of_sameByKey (h : SameByKey found found')
    (hs : start.setAll found = .ok s) : start.setAll found' = .ok s := by
  obtain ⟨hadmits, hholds⟩ := holds_of_setAll hs
  cases hs' : start.setAll found' with
  | error err =>
      obtain ⟨before, key, value, after, rfl, -, hrefuses⟩ :=
        setAll_eq_error_iff.1 hs'
      have hmem : (key, value) ∈ found := h.mem (by simp)
      exact absurd (hadmits _ hmem) hrefuses.not_admits
  | ok s' =>
      have hholds' : ∀ k, Holds start found s' k := by
        intro k
        have hk := (holds_of_setAll hs').2 k
        rwa [Holds, ← h.last?_eq] at hk
      rw [eq_of_holds hholds hholds']

end All

/-! ## Documents -/

section Documents

variable {document : String} {found : List (String × String)}

theorem read_eq (h : readPairs document = .ok found) :
    read document = standard.setAll found := by
  rw [read, h, ok_bind]

theorem exists_read_eq_error_iff (h : readPairs document = .ok found) :
    (∃ err, read document = .error err) ↔
      ∃ pair ∈ found, ¬Admits pair.1 pair.2 := by
  constructor
  · rintro ⟨err, herr⟩
    rw [read_eq h, setAll_eq_error_iff] at herr
    obtain ⟨before, key, value, after, rfl, -, hrefuses⟩ := herr
    exact ⟨(key, value), by simp, hrefuses.not_admits⟩
  · rintro ⟨pair, hpair, hnot⟩
    cases hread : read document with
    | error err => exact ⟨err, rfl⟩
    | ok s =>
        rw [read_eq h] at hread
        exact absurd ((holds_of_setAll hread).1 pair hpair) hnot

end Documents

end SciCalc.Settings

namespace SciCalc

open Settings

/-- The settings of a document. A line that is no pair is the error before any
pair is looked at. Otherwise the first pair with an unknown key or a value that
its key does not admit is the error, which names the key, whatever follows; and
without such a pair every setting has the value of the last pair with its key, or
its standard value. So pairs with different keys may change places. -/
theorem last_value_counts_and_first_refusal_stops :
    (∀ (document : String) (err : SettingsError),
      readPairs document = .error err → read document = .error err) ∧
    (∀ (document : String) (found : List (String × String)),
      readPairs document = .ok found →
        ((∃ err, read document = .error err) ↔
          ∃ pair ∈ found, ¬Admits pair.1 pair.2) ∧
        (∀ err, read document = .error err ↔
          ∃ before key value after, found = before ++ (key, value) :: after ∧
            (∀ pair ∈ before, Admits pair.1 pair.2) ∧
            Refuses key value err ∧ key.toList <:+: err.message.toList) ∧
        ∀ s, read document = .ok s → ∀ k, Holds standard found s k) ∧
    (∀ (document document' : String) (found found' : List (String × String)),
      readPairs document = .ok found → readPairs document' = .ok found' →
        SameByKey found found' →
        ∀ s, read document = .ok s → read document' = .ok s) := by
  refine ⟨?_, ?_, ?_⟩
  · intro document err herr
    rw [Settings.read, herr, Outcome.error_bind]
  · intro document found hfound
    refine ⟨exists_read_eq_error_iff hfound, ?_, ?_⟩
    · intro err
      rw [read_eq hfound, setAll_eq_error_iff]
      constructor
      · rintro ⟨before, key, value, after, hpairs, hbefore, hrefuses⟩
        exact ⟨before, key, value, after, hpairs, hbefore, hrefuses,
          hrefuses.key_isInfix⟩
      · rintro ⟨before, key, value, after, hpairs, hbefore, hrefuses, -⟩
        exact ⟨before, key, value, after, hpairs, hbefore, hrefuses⟩
    · intro s hs
      rw [read_eq hfound] at hs
      exact (holds_of_setAll hs).2
  · intro document document' found found' hfound hfound' hsame s hs
    rw [read_eq hfound] at hs
    rw [read_eq hfound']
    exact setAll_of_sameByKey hsame hs

/-- The first document has a bad value that a later pair replaces, which does not
help. The other two have the same pairs, not in the same order. -/
theorem settings_of_rearranged_pairs :
    let refused := "variable: sin\nzoom: 2\nvariable: t"
    let first := "variable: u\nangle_mode: rad\nvariable: t"
    let second := "angle_mode: rad\nvariable: u\nvariable: t"
    let found := [("variable", "u"), ("angle_mode", "rad"), ("variable", "t")]
    let found' := [("angle_mode", "rad"), ("variable", "u"), ("variable", "t")]
    read "zoom: 2\nno pair" = .error (.line "no pair") ∧
      read refused = .error (.variableName "sin") ∧
      (readPairs first = .ok found ∧ readPairs second = .ok found' ∧
        SameByKey found found') ∧
      ∃ s, read first = .ok s ∧ read second = .ok s ∧
        s.variableName = "t" ∧ s.mode = .radians ∧ s.count = 800 := by
  intro refused first second found found'
  obtain ⟨hline, hpairs, hsame⟩ := last_value_counts_and_first_refusal_stops
  have hbroken : readPairs "zoom: 2\nno pair" = .error (.line "no pair") := by
    decide +kernel
  have hrefused : readPairs refused =
      .ok [("variable", "sin"), ("zoom", "2"), ("variable", "t")] := by
    decide +kernel
  have hsin : Refuses Key.variableName.name "sin" (.variableName "sin") :=
    .value (by decide)
  have hfirst : readPairs first = .ok found := by decide +kernel
  have hsecond : readPairs second = .ok found' := by decide +kernel
  have hkeys : SameByKey found found' := by
    intro key
    by_cases hmode : "angle_mode" = key
    · subst hmode
      decide
    · simp [found, found', hmode, List.filter_cons]
  have hadmits : ∀ pair ∈ found, Admits pair.1 pair.2 := by
    have hfound : found = [("variable", "u"), ("angle_mode", "rad"),
        ("variable", "t")] := rfl
    rw [hfound]
    rintro pair (_ | ⟨_, _ | ⟨_, _ | ⟨_, ⟨⟩⟩⟩⟩)
    · exact ⟨.variableName, "u", rfl, rfl⟩
    · exact ⟨.mode, .radians, rfl, rfl⟩
    · exact ⟨.variableName, "t", rfl, rfl⟩
  obtain ⟨s, hs⟩ : ∃ s, read first = .ok s := by
    cases hread : read first with
    | ok s => exact ⟨s, rfl⟩
    | error err =>
        obtain ⟨pair, hpair, hnot⟩ := (hpairs _ _ hfirst).1.1 ⟨err, hread⟩
        exact absurd (hadmits pair hpair) hnot
  have hholds := (hpairs _ _ hfirst).2.2 s hs
  have hname : Key.variableName.read? "t" = some s.variableName :=
    hholds .variableName
  have hmode : Key.mode.read? "rad" = some s.mode := hholds .mode
  have hcount : s.count = 800 := hholds .count
  refine ⟨hline _ _ hbroken, ?_, ⟨hfirst, hsecond, hkeys⟩, s, hs,
    hsame _ _ _ _ hfirst hsecond hkeys s hs, ?_, ?_, hcount⟩
  · exact ((hpairs _ _ hrefused).2.1 _).2 ⟨[], _, _, _, rfl,
      List.forall_mem_nil _, hsin, hsin.key_isInfix⟩
  · exact (Option.some.inj hname).symm
  · exact (Option.some.inj hmode).symm

end SciCalc
