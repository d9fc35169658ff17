import SciCalc.Proofs.Expression.FirstFault
import SciCalc.Proofs.Expression.FreeVariables

/-!
# What an evaluation depends on

Two contexts give a tree the same outcome when they agree on its free variables
and have the same angle mode. The mode counts only for trees that call one of
the six trigonometric functions. The names in a tree are those of its nodes, so
that nothing can stand in a tree and be missing among its free variables.
-/

namespace SciCalc

variable {ν : Type} {c d : Context}

/-! ## Free variables -/

theorem pairwise_insertName {names : List String} (name : String)
    (h : names.Pairwise (· < ·)) : (insertName name names).Pairwise (· < ·) := by
  induction names with
  | nil => exact List.pairwise_singleton _ name
  | cons first rest ih =>
      rw [List.pairwise_cons] at h
      obtain ⟨hfirst, hrest⟩ := h
      unfold insertName
      split
      · next hless =>
          refine List.pairwise_cons.2 ⟨?_, List.pairwise_cons.2 ⟨hfirst, hrest⟩⟩
          intro other hother
          rcases List.mem_cons.1 hother with rfl | hother
          · exact hless
          · exact hless.trans (hfirst other hother)
      · next hless =>
          split
          · exact List.pairwise_cons.2 ⟨hfirst, hrest⟩
          · next hne =>
              refine List.pairwise_cons.2 ⟨?_, ih hrest⟩
              intro other hother
              rcases mem_insertName.1 hother with rfl | hother
              · exact lt_of_le_of_ne (not_lt.1 hless) (Ne.symm hne)
              · exact hfirst other hother

namespace Expr

theorem pairwise_freeVariables (e : Expr ν) :
    e.freeVariables.Pairwise (· < ·) := by
  unfold freeVariables
  induction e.occurrences with
  | nil => exact List.Pairwise.nil
  | cons name names ih => exact pairwise_insertName name ih

mutual

theorem mem_occurrences_iff (e : Expr ν) {name : String} :
    name ∈ e.occurrences ↔
      constant? name = none ∧ .identifier name ∈ e.nodes := by
  match e with
  | number value => simp [occurrences, nodes]
  | identifier other =>
      rw [occurrences, nodes, List.mem_singleton, identifier.injEq]
      cases hconstant : constant? other with
      | some value =>
          simp only [Option.isSome_some, if_true, List.not_mem_nil, false_iff]
          rintro ⟨hnone, rfl⟩
          exact Option.some_ne_none value (hconstant.symm.trans hnone)
      | none =>
          simp only [Option.isSome_none, Bool.false_eq_true, if_false,
            List.mem_singleton]
          constructor
          · rintro rfl
            exact ⟨hconstant, rfl⟩
          · exact And.right
  | neg operand =>
      simp [occurrences, nodes, mem_occurrences_iff operand]
  | binary op left right =>
      simp [occurrences, nodes, mem_occurrences_iff left,
        mem_occurrences_iff right, and_or_left]
  | call function arguments =>
      simp [occurrences, nodes, mem_occurrencesAll_iff arguments]

theorem mem_occurrencesAll_iff (es : List (Expr ν)) {name : String} :
    name ∈ occurrencesAll es ↔
      constant? name = none ∧ .identifier name ∈ nodesAll es := by
  match es with
  | [] => simp [occurrencesAll, nodesAll]
  | e :: es =>
      simp [occurrencesAll, nodesAll, mem_occurrences_iff e,
        mem_occurrencesAll_iff es, and_or_left]

end

theorem notMem_freeVariables_of_constant {e : Expr ν} {name : String}
    {value : Float} (h : constant? name = some value) :
    name ∉ e.freeVariables := by
  rw [mem_freeVariables, mem_occurrences_iff, h]
  rintro ⟨hnone, -⟩
  cases hnone

end Expr

/-! ## Evaluation in two contexts -/

/-- The contexts agree on what these nodes read: the values of their variables
and, for trigonometric functions, the angle mode. -/
structure Context.AgreeAt (c d : Context) (nodes : List (Expr ν)) : Prop where
  lookup : ∀ name, constant? name = none → .identifier name ∈ nodes →
    c.lookup? name = d.lookup? name
  mode : c.mode = d.mode ∨ ∀ f : Elementary, f.isTrigonometric = true →
    ∀ arguments, .call f.name arguments ∉ nodes

namespace Context.AgreeAt

variable {nodes part : List (Expr ν)}

theorem mono (h : c.AgreeAt d nodes) (hpart : part ⊆ nodes) :
    c.AgreeAt d part where
  lookup name hconstant hname := h.lookup name hconstant (hpart hname)
  mode := h.mode.imp_right fun hnone f hf arguments hcall =>
    hnone f hf arguments (hpart hcall)

theorem resolve?_eq (h : c.AgreeAt d nodes) {name : String}
    (hname : .identifier name ∈ nodes) : c.resolve? name = d.resolve? name := by
  unfold Context.resolve?
  cases hconstant : constant? name with
  | some value => rfl
  | none => exact h.lookup name hconstant hname

end Context.AgreeAt

theorem Elementary.name_of_ofName? {word : String} {f : Elementary}
    (h : ofName? word = some f) : f.name = word := by
  simpa using List.find?_some h

theorem Elementary.apply_of_not_isTrigonometric {f : Elementary}
    (h : f.isTrigonometric = false) (mode mode' : AngleMode) (x : Float) :
    f.apply mode x = f.apply mode' x := by
  cases f with
  | sin | cos | tan | asin | acos | atan => cases h
  | sqrt | cbrt | log | ln | exp | abs => rfl

theorem Context.AgreeAt.apply_eq {nodes : List (Expr ν)}
    (h : c.AgreeAt d nodes) {function : String} {arguments : List (Expr ν)}
    (hcall : .call function arguments ∈ nodes) {f : Elementary}
    (hf : Elementary.ofName? function = some f) (x : Float) :
    f.apply c.mode x = f.apply d.mode x := by
  rw [← Elementary.name_of_ofName? hf] at hcall
  rcases h.mode with hmode | hnone
  · rw [hmode]
  · apply Elementary.apply_of_not_isTrigonometric
    rw [← Bool.not_eq_true]
    intro htrigonometric
    exact hnone f htrigonometric arguments hcall

/-- The induction follows the evaluation in the first context; in the second
one the same nodes are met. -/
theorem Context.AgreeAt.evaluate_eq {e : Expr Float} (h : c.AgreeAt d e.nodes) :
    e.evaluate c = e.evaluate d := by
  fun_induction Expr.evaluate c e with
  | case1 value => rfl
  | case2 name value hvalue =>
      rw [h.resolve?_eq (List.mem_singleton_self _)] at hvalue
      simp only [Expr.evaluate, hvalue]
  | case3 name hnone =>
      rw [h.resolve?_eq (List.mem_singleton_self _)] at hnone
      simp only [Expr.evaluate, hnone]
  | case4 operand ih =>
      rw [Expr.evaluate, ih (h.mono (List.subset_cons_self _ _))]
  | case5 op left right ihLeft ihRight =>
      have hleft : left.nodes ⊆ (Expr.binary op left right).nodes :=
        List.subset_cons_of_subset _ (List.subset_append_left _ _)
      have hright : right.nodes ⊆ (Expr.binary op left right).nodes :=
        List.subset_cons_of_subset _ (List.subset_append_right _ _)
      rw [Expr.evaluate, ihLeft (h.mono hleft), ihRight (h.mono hright)]
  | case6 function argument hnone => simp only [Expr.evaluate, hnone]
  | case7 function argument f hf ih =>
      have hargument : argument.nodes ⊆
          (Expr.call function [argument]).nodes :=
        List.subset_cons_of_subset _ (List.subset_append_left _ _)
      simp only [Expr.evaluate, hf, ih (h.mono hargument),
        h.apply_eq List.mem_cons_self hf]
  | case8 function arguments hmany hnone =>
      simp only [Expr.evaluate, hnone]
  | case9 function arguments hmany f hf =>
      simp only [Expr.evaluate, hf]

/-- An evaluation depends on the values of the free variables and, when a
trigonometric function is called, on the angle mode. Bindings of other names,
and of the constants, can come and go. -/
theorem evaluation_reads_free_variables (e : Expr Float) :
    (∀ c d : Context,
      (∀ name ∈ e.freeVariables, c.lookup? name = d.lookup? name) →
      (c.mode = d.mode ∨ ∀ f : Elementary, f.isTrigonometric = true →
        ∀ arguments, .call f.name arguments ∉ e.nodes) →
      e.evaluate c = e.evaluate d) ∧
    (∀ (c : Context) (name : String),
      name ∉ e.freeVariables ∨ name = "pi" ∨ name = "e" →
        (∀ value, e.evaluate (c.bind name value) = e.evaluate c) ∧
        e.evaluate (c.unbind name) = e.evaluate c) ∧
    e.freeVariables.Pairwise (· < ·) := by
  have hagree : ∀ c d : Context,
      (∀ name ∈ e.freeVariables, c.lookup? name = d.lookup? name) →
      (c.mode = d.mode ∨ ∀ f : Elementary, f.isTrigonometric = true →
        ∀ arguments, .call f.name arguments ∉ e.nodes) →
      e.evaluate c = e.evaluate d := by
    intro c d hnames hmode
    refine Context.AgreeAt.evaluate_eq ⟨fun name hconstant hname => ?_, hmode⟩
    apply hnames
    rw [Expr.mem_freeVariables, Expr.mem_occurrences_iff]
    exact ⟨hconstant, hname⟩
  refine ⟨hagree, ?_, e.pairwise_freeVariables⟩
  intro c name hname
  have hfree : name ∉ e.freeVariables := by
    rcases hname with hfree | rfl | rfl
    · exact hfree
    · exact Expr.notMem_freeVariables_of_constant rfl
    · exact Expr.notMem_freeVariables_of_constant rfl
  have hother : ∀ other ∈ e.freeVariables, other ≠ name := by
    rintro other hother rfl
    exact hfree hother
  constructor
  · intro value
    exact hagree _ _ (fun other h =>
      c.lookup?_bind_of_ne value (hother other h)) (.inl rfl)
  · exact hagree _ _ (fun other h =>
      c.lookup?_unbind_of_ne (hother other h)) (.inl rfl)

/-- A value for `pi` is never looked up, and without a trigonometric function
the modes may differ. -/
theorem evaluation_in_degrees_and_radians :
    let e : Expr Float := .binary .mul (.call "exp" [.identifier "x"])
      (.neg (.identifier "pi"))
    let c : Context := ⟨[("y", 5), ("x", 2)], .degrees⟩
    let d : Context := ⟨[("x", 2), ("pi", 3)], .radians⟩
    (∀ name ∈ e.freeVariables, c.lookup? name = d.lookup? name) ∧
      c.mode ≠ d.mode ∧
      (∀ f : Elementary, f.isTrigonometric = true →
        ∀ arguments, .call f.name arguments ∉ e.nodes) ∧
      e.evaluate c = e.evaluate d ∧
      "y" ∉ e.freeVariables ∧
      e.evaluate (c.unbind "y") = e.evaluate c := by
  intro e c d
  obtain ⟨hagree, hother, -⟩ := evaluation_reads_free_variables e
  have hlookup : ∀ name ∈ e.freeVariables, c.lookup? name = d.lookup? name := by
    intro name hname
    rw [List.mem_singleton.1 hname]
    rfl
  have hcalls : ∀ f : Elementary, f.isTrigonometric = true →
      ∀ arguments, .call f.name arguments ∉ e.nodes := by
    intro f hf arguments hcall
    obtain ⟨hname, -⟩ : f.name = "exp" ∧ arguments = [.identifier "x"] := by
      simpa [e, Expr.nodes, Expr.nodesAll] using hcall
    cases f with
    | sin | cos | tan | asin | acos | atan => exact absurd hname (by decide)
    | sqrt | cbrt | log | ln | exp | abs => cases hf
  have hy : "y" ∉ e.freeVariables := by decide
  exact ⟨hlookup, by decide, hcalls, hagree c d hlookup (.inr hcalls), hy,
    (hother c "y" (.inl hy)).2⟩

end SciCalc
