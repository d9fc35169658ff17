import SciCalc.Proofs.Expression.BracketBalance

/-!
# The bracket without a partner

The scan keeps the places of the brackets that are open, the innermost one in
front. Between two of these brackets, and behind the last one, the text is well
nested; so the place in front is that of the last bracket without a partner,
and a closing bracket that finds no place is the first one too many.
-/

namespace SciCalc.Brackets

/-! ## Well-nested texts -/

/-- The brackets of the text are well nested. Other characters may stand
anywhere. -/
inductive WellNested : List Char → Prop
  | nil : WellNested []
  | plain {c : Char} (hc : isBracket c = false) : WellNested [c]
  | enclosed {inside : List Char} (h : WellNested inside) :
      WellNested ('(' :: (inside ++ [')']))
  | append {before after : List Char} (hbefore : WellNested before)
      (hafter : WellNested after) : WellNested (before ++ after)

/-- The brackets at these two places enclose a well-nested text. -/
def Partners (text : List Char) (i j : Nat) : Prop :=
  ∃ before inside after, text = before ++ '(' :: (inside ++ ')' :: after) ∧
    before.length = i ∧ i + inside.length + 1 = j ∧ WellNested inside

/-- An opening bracket that nothing closes. -/
def Unclosed (text : List Char) (i : Nat) : Prop :=
  text[i]? = some '(' ∧ ∀ j, ¬Partners text i j

/-- More brackets are closed than opened. -/
def Overclosed (text : List Char) : Prop :=
  text.count '(' < text.count ')'

instance (text : List Char) : Decidable (Overclosed text) :=
  inferInstanceAs (Decidable (_ < _))

/-- The closing bracket at this place is the first one too many. -/
structure FirstOverclosing (text : List Char) (p : Nat) : Prop where
  char : text[p]? = some ')'
  overclosed : Overclosed (text.take (p + 1))
  first : ∀ k ≤ p, ¬Overclosed (text.take k)

/-! ## Brackets counted -/

theorem WellNested.openBehind_eq {text : List Char} (h : WellNested text)
    (count : Nat) : openBehind count text = some count := by
  induction h generalizing count with
  | nil => rfl
  | plain hc => rw [openBehind_of_not_isBracket hc, openBehind]
  | enclosed h ih =>
      rw [openBehind, openBehind_append, ih]
      rfl
  | append hbefore hafter ihBefore ihAfter =>
      rw [openBehind_append, ihBefore]
      exact ihAfter count

theorem count_of_openBehind {opened left : Nat} {text : List Char}
    (h : openBehind opened text = some left) :
    opened + text.count '(' = left + text.count ')' := by
  fun_induction openBehind opened text with
  | case1 opened =>
      cases h
      rfl
  | case2 opened rest ih =>
      have hrest := ih h
      rw [List.count_cons_self, List.count_cons_of_ne (by decide)]
      omega
  | case3 rest => cases h
  | case4 opened rest ih =>
      have hrest := ih h
      rw [List.count_cons_self, List.count_cons_of_ne (by decide)]
      omega
  | case5 opened c rest hopen hclose hclose' ih =>
      have hne : c ≠ ')' := by
        rintro rfl
        cases opened with
        | zero => exact hclose rfl rfl
        | succ opened => exact hclose' opened rfl rfl
      rw [List.count_cons_of_ne hopen, List.count_cons_of_ne hne]
      exact ih h

/-- Where the brackets can be counted to the end, no beginning of the text
closes too many. -/
theorem not_overclosed_of_openBehind {before after : List Char} {left : Nat}
    (h : openBehind 0 (before ++ after) = some left) : ¬Overclosed before := by
  rw [openBehind_append] at h
  obtain ⟨between, hbetween, -⟩ := Option.bind_eq_some_iff.1 h
  have hcount := count_of_openBehind hbetween
  unfold Overclosed
  omega

/-! ## Partners -/

section Partners

variable {text : List Char} {i j : Nat}

theorem Partners.within (h : Partners text i j) (front back : List Char) :
    Partners (front ++ text ++ back) (front.length + i) (front.length + j) := by
  obtain ⟨before, inside, after, rfl, rfl, rfl, hinside⟩ := h
  refine ⟨front ++ before, inside, after ++ back, ?_, ?_, ?_, hinside⟩
  · simp
  · rw [List.length_append]
  · omega

theorem Partners.behind (h : Partners text i j) (front : List Char) :
    Partners (front ++ text) (front.length + i) (front.length + j) := by
  simpa using h.within front []

/-- In a well-nested text every opening bracket has its partner. -/
theorem WellNested.exists_partner (h : WellNested text)
    (hchar : text[i]? = some '(') : ∃ j, Partners text i j := by
  induction h generalizing i with
  | nil => cases hchar
  | @plain c hc =>
      obtain rfl : c = '(' :=
        List.mem_singleton.1 (List.mem_of_getElem? hchar) |>.symm
      cases hc
  | @enclosed inside h ih =>
      cases i with
      | zero => exact ⟨_, [], inside, [], rfl, rfl, rfl, h⟩
      | succ i =>
          rw [List.getElem?_cons_succ] at hchar
          have hi : i < inside.length := by
            by_contra hge
            rw [List.getElem?_append_right (not_lt.1 hge)] at hchar
            have hmem := List.mem_of_getElem? hchar
            cases List.mem_singleton.1 hmem
          rw [List.getElem?_append_left hi] at hchar
          obtain ⟨j, hj⟩ := ih hchar
          refine ⟨j + 1, ?_⟩
          rw [Nat.add_comm i, Nat.add_comm j]
          exact hj.within ['('] [')']
  | @append before after hbefore hafter ihBefore ihAfter =>
      rcases lt_or_ge i before.length with hi | hi
      · rw [List.getElem?_append_left hi] at hchar
        obtain ⟨j, hj⟩ := ihBefore hchar
        exact ⟨j, by simpa using hj.within [] after⟩
      · rw [List.getElem?_append_right hi] at hchar
        obtain ⟨j, hj⟩ := ihAfter hchar
        refine ⟨before.length + j, ?_⟩
        rw [← Nat.add_sub_cancel' hi]
        exact hj.behind before

end Partners

/-! ## What the scan keeps -/

/-- Behind the text the brackets at these places are open, the innermost one in
front. -/
inductive Leaves : List Char → List Nat → Prop
  | nested {text : List Char} (h : WellNested text) : Leaves text []
  | inside {before inside : List Char} {outer : List Nat}
      (hbefore : Leaves before outer) (hinside : WellNested inside) :
      Leaves (before ++ '(' :: inside) (before.length :: outer)

namespace Leaves

variable {text : List Char} {opened outer : List Nat} {p : Nat}

theorem wellNested (h : Leaves text []) : WellNested text := by
  cases h with
  | nested h => exact h

theorem openBehind_eq (h : Leaves text opened) :
    openBehind 0 text = some opened.length := by
  induction h with
  | nested h => exact h.openBehind_eq 0
  | inside hbefore hinside ih =>
      rw [openBehind_append, ih]
      exact hinside.openBehind_eq _

theorem not_overclosed {part : List Char} (h : Leaves text opened)
    (hpart : part <+: text) : ¬Overclosed part := by
  obtain ⟨rest, rfl⟩ := hpart
  exact not_overclosed_of_openBehind h.openBehind_eq

theorem append {more : List Char} (h : Leaves text opened)
    (hmore : WellNested more) : Leaves (text ++ more) opened := by
  cases h with
  | nested h => exact .nested (h.append hmore)
  | inside hbefore hinside =>
      rw [List.append_assoc, List.cons_append]
      exact .inside hbefore (hinside.append hmore)

theorem opening (h : Leaves text opened) :
    Leaves (text ++ ['(']) (text.length :: opened) :=
  .inside h .nil

/-- A closing bracket encloses what stands behind the innermost open one. -/
theorem closing (h : Leaves text (p :: outer)) :
    Leaves (text ++ [')']) outer := by
  cases h with
  | inside hbefore hinside =>
      rw [List.append_assoc, List.cons_append]
      exact hbefore.append hinside.enclosed

/-- The innermost open bracket is the last one without a partner. -/
theorem last_unclosed (h : Leaves text (p :: outer)) :
    Unclosed text p ∧ ∀ q, Unclosed text q → q ≤ p := by
  cases h with
  | @inside before inside outer hbefore hinside =>
      refine ⟨⟨by simp, ?_⟩, ?_⟩
      · rintro j ⟨before', inside', after', htext, hlength, -, hinside'⟩
        obtain ⟨rfl, htail⟩ := List.append_inj htext hlength.symm
        cases htail
        -- the partner closes more than the text behind the bracket opens
        have hcount := hinside.openBehind_eq 0
        rw [openBehind_append, hinside'.openBehind_eq] at hcount
        cases hcount
      · rintro q ⟨hchar, hnone⟩
        by_contra hlt
        obtain ⟨k, rfl⟩ := Nat.exists_eq_add_of_lt (not_le.1 hlt)
        have hplace : before.length + k + 1 =
            (before ++ ['(']).length + k := by
          simp
          omega
        have htext : before ++ '(' :: inside = before ++ ['('] ++ inside := by
          simp
        rw [hplace, htext, List.getElem?_append_right (by omega),
          Nat.add_sub_cancel_left] at hchar
        obtain ⟨j, hj⟩ := hinside.exists_partner hchar
        apply hnone ((before ++ ['(']).length + j)
        rw [hplace, htext]
        exact hj.behind (before ++ ['('])

end Leaves

/-- How the scan of a text may end: with every bracket closed, with an open one,
or at a closing bracket for which none is open. -/
inductive Ends : List Char → Option Nat → Prop
  | nested {text : List Char} (h : WellNested text) : Ends text none
  | unclosed {text : List Char} {p : Nat} {outer : List Nat}
      (h : Leaves text (p :: outer)) : Ends text (some p)
  | overclosed {before after : List Char} (h : WellNested before) :
      Ends (before ++ ')' :: after) (some before.length)

/-- The induction is on the text that is left; a character changes what is open
and lengthens the text that has been passed. -/
theorem Leaves.ends {before : List Char} {opened : List Nat}
    (h : Leaves before opened) (rest : List Char) :
    Ends (before ++ rest) (scan opened before.length rest) := by
  induction rest generalizing before opened with
  | nil =>
      rw [List.append_nil]
      cases opened with
      | nil => exact .nested h.wellNested
      | cons p outer => exact .unclosed h
  | cons c rest ih =>
      have hstep : ∀ {opened' : List Nat}, Leaves (before ++ [c]) opened' →
          Ends (before ++ c :: rest)
            (scan opened' (before.length + 1) rest) := by
        intro opened' hleaves
        simpa using ih hleaves
      rcases isBracket_cases c with hc | rfl | rfl
      · rw [scan_of_not_isBracket hc]
        exact hstep (h.append (.plain hc))
      · exact hstep h.opening
      · cases opened with
        | nil => exact .overclosed h.wellNested
        | cons p outer => exact hstep h.closing

theorem unmatched_ends (text : List Char) : Ends text (unmatched text) :=
  (Leaves.nested .nil).ends text

/-! ## The bracket that is reported -/

section Reported

variable {text : List Char}

theorem unmatched_eq_none_iff : unmatched text = none ↔ WellNested text := by
  constructor
  · intro hnone
    have hends := unmatched_ends text
    rw [hnone] at hends
    cases hends with
    | nested h => exact h
  · intro h
    exact scan_eq_none_iff.2 (h.openBehind_eq 0)

theorem WellNested.not_overclosed {part : List Char} (h : WellNested text)
    (hpart : part <+: text) : ¬Overclosed part :=
  (Leaves.nested h).not_overclosed hpart

theorem WellNested.not_unclosed (h : WellNested text) (q : Nat) :
    ¬Unclosed text q := by
  rintro ⟨hchar, hnone⟩
  obtain ⟨j, hj⟩ := h.exists_partner hchar
  exact hnone j hj

theorem WellNested.firstOverclosing {before : List Char} (h : WellNested before)
    (after : List Char) :
    FirstOverclosing (before ++ ')' :: after) before.length where
  char := by simp
  overclosed := by
    have hcount := count_of_openBehind (h.openBehind_eq 0)
    have htake : (before ++ ')' :: after).take (before.length + 1) =
        before ++ [')'] := by
      rw [List.take_length_add_append]
      rfl
    rw [htake, Overclosed, List.count_append, List.count_append]
    simp
    omega
  first k hk := by
    rw [List.take_append_of_le_length hk]
    exact h.not_overclosed (List.take_prefix k before)

/-- The bracket that closes too many comes first. -/
theorem firstOverclosing_of_overclosed {part : List Char}
    (hpart : part <+: text) (hover : Overclosed part) :
    ∃ p, unmatched text = some p ∧ FirstOverclosing text p := by
  cases hends : unmatched text with
  | none =>
      exact absurd hover ((unmatched_eq_none_iff.1 hends).not_overclosed hpart)
  | some p =>
      have hcases := unmatched_ends text
      rw [hends] at hcases
      cases hcases with
      | unclosed h => exact absurd hover (h.not_overclosed hpart)
      | @overclosed before after h => exact ⟨_, rfl, h.firstOverclosing after⟩

/-- Where no bracket closes too many, the last one that is left open counts. -/
theorem last_unclosed_of_unclosed
    (hover : ∀ part, part <+: text → ¬Overclosed part) {q : Nat}
    (hq : Unclosed text q) :
    ∃ p, unmatched text = some p ∧ Unclosed text p ∧
      ∀ q, Unclosed text q → q ≤ p := by
  cases hends : unmatched text with
  | none => exact absurd hq ((unmatched_eq_none_iff.1 hends).not_unclosed q)
  | some p =>
      have hcases := unmatched_ends text
      rw [hends] at hcases
      cases hcases with
      | unclosed h => exact ⟨p, rfl, h.last_unclosed⟩
      | @overclosed before after h =>
          have hfirst := (h.firstOverclosing after).overclosed
          exact absurd hfirst (hover _ (List.take_prefix _ _))

end Reported

/-- The check for brackets is exact. It passes the well-nested texts and no
others. Otherwise it reports the first bracket that closes more than was opened,
or, where there is none, the last bracket that is left open. -/
theorem unmatched_reports_first_or_innermost (text : List Char) :
    (unmatched text = none ↔ WellNested text) ∧
      (balanced text = true ↔ WellNested text) ∧
      ((∃ part, part <+: text ∧ Overclosed part) →
        ∃ p, unmatched text = some p ∧ FirstOverclosing text p) ∧
      ((∀ part, part <+: text → ¬Overclosed part) →
        (∃ q, Unclosed text q) →
        ∃ p, unmatched text = some p ∧ Unclosed text p ∧
          ∀ q, Unclosed text q → q ≤ p) := by
  refine ⟨unmatched_eq_none_iff, ?_, ?_, ?_⟩
  · rw [balanced, Option.isNone_iff_eq_none]
    exact unmatched_eq_none_iff
  · rintro ⟨part, hpart, hover⟩
    exact firstOverclosing_of_overclosed hpart hover
  · rintro hover ⟨q, hq⟩
    exact last_unclosed_of_unclosed hover hq

/-- Two brackets close too many in the first text; in the second one two are
left open, and the last one in the text is not one of them. -/
theorem unmatched_of_two_texts :
    let closed := "(x))+y)(".toList
    let opened := "(x+(1+(y)".toList
    (Overclosed "(x))".toList ∧ unmatched closed = some 3 ∧
      FirstOverclosing closed 3) ∧
    ((∀ part, part <+: opened → ¬Overclosed part) ∧
      unmatched opened = some 3 ∧ Unclosed opened 3 ∧
      ∀ q, Unclosed opened q → q ≤ 3) := by
  intro closed opened
  obtain ⟨-, -, hclosed, -⟩ := unmatched_reports_first_or_innermost closed
  obtain ⟨-, -, -, hopened⟩ := unmatched_reports_first_or_innermost opened
  have hover : Overclosed "(x))".toList := by decide
  have hfree : ∀ part, part <+: opened → ¬Overclosed part := by
    rintro part ⟨rest, hrest⟩
    have hcount : openBehind 0 opened = some 2 := by decide
    rw [← hrest] at hcount
    exact not_overclosed_of_openBehind hcount
  have hleaves : Leaves opened [3, 0] := by
    have hfirst : WellNested "x+".toList := unmatched_eq_none_iff.1 (by decide)
    have hsecond : WellNested "1+(y)".toList :=
      unmatched_eq_none_iff.1 (by decide)
    exact .inside (.inside (.nested .nil) hfirst) hsecond
  obtain ⟨p, hp, hfirst⟩ := hclosed ⟨_, ⟨"+y)(".toList, by decide⟩, hover⟩
  obtain ⟨q, hq, hlast⟩ := hopened hfree ⟨3, hleaves.last_unclosed.1⟩
  have hp' : unmatched closed = some 3 := by decide
  have hq' : unmatched opened = some 3 := by decide
  obtain rfl : p = 3 := Option.some.inj (hp.symm.trans hp')
  obtain rfl : q = 3 := Option.some.inj (hq.symm.trans hq')
  exact ⟨⟨hover, hp, hfirst⟩, hfree, hq, hlast⟩

end SciCalc.Brackets
