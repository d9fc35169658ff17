import SciCalc.Proofs.Decimal.NumberText
import SciCalc.Proofs.Expression.Cutting

/-!
# Tokens are maximal runs

A text falls into pieces in exactly one way: runs of digits and points and runs
of letters, none of which goes on in the next piece, and other characters by
themselves. Every piece is read on its own. So the tokens are those of the
pieces in order, and the first piece that cannot be read is the error.
-/

namespace SciCalc.Lexeme

open SciCalc.Outcome SciCalc.Decimal

variable {ν : Type}

/-- A run of digits and points, a run of letters, or another character by
itself. -/
inductive Piece : List Placed → Prop
  | numeric {run : List Placed} (hne : run ≠ [])
      (hrun : ∀ p ∈ run, isNumeric p.char = true) : Piece run
  | letters {run : List Placed} (hne : run ≠ [])
      (hrun : ∀ p ∈ run, p.char.isAlpha = true) : Piece run
  | single {p : Placed} (hnumeric : isNumeric p.char = false)
      (halpha : p.char.isAlpha = false) : Piece [p]

/-- The text falls into these pieces, and no run goes on from one piece to the
next. -/
structure Pieces (placed : List Placed) (pieces : List (List Placed)) :
    Prop where
  flatten : pieces.flatten = placed
  piece : ∀ run ∈ pieces, Piece run
  maximal : pieces.IsChain fun run next =>
    Separate (run.map Placed.char) (next.map Placed.char)

/-! ## There is one way to take a text to pieces -/

/-- A run goes on from the first character to the second. -/
def goesOn (p q : Placed) : Bool :=
  isNumeric p.char && isNumeric q.char || p.char.isAlpha && q.char.isAlpha

theorem goesOn_eq_true_iff {p q : Placed} :
    goesOn p q = true ↔
      (isNumeric p.char = true ∧ isNumeric q.char = true) ∨
        (p.char.isAlpha = true ∧ q.char.isAlpha = true) := by
  simp [goesOn]

theorem Piece.ne_nil {run : List Placed} (h : Piece run) : run ≠ [] := by
  cases h with
  | numeric hne hrun => exact hne
  | letters hne hrun => exact hne
  | single hnumeric halpha => exact List.cons_ne_nil _ _

theorem isChain_goesOn {run : List Placed}
    (h : ∀ p ∈ run, ∀ q ∈ run, goesOn p q = true) :
    run.IsChain fun p q => goesOn p q = true := by
  apply List.isChain_iff_forall_rel_of_append_cons_cons.2
  rintro p q front back rfl
  exact h p (by simp) q (by simp)

theorem Piece.isChain_goesOn {run : List Placed} (h : Piece run) :
    run.IsChain fun p q => goesOn p q = true := by
  cases h with
  | numeric hne hrun =>
      exact Lexeme.isChain_goesOn fun p hp q hq =>
        goesOn_eq_true_iff.2 (.inl ⟨hrun p hp, hrun q hq⟩)
  | letters hne hrun =>
      exact Lexeme.isChain_goesOn fun p hp q hq =>
        goesOn_eq_true_iff.2 (.inr ⟨hrun p hp, hrun q hq⟩)
  | single hnumeric halpha => exact List.isChain_singleton _

/-- A class that every step of a run keeps holds throughout the run. -/
theorem forall_of_isChain_goesOn {f : Char → Bool}
    (hstep : ∀ p q, goesOn p q = true → f p.char = true → f q.char = true)
    {p : Placed} {rest : List Placed}
    (hchain : (p :: rest).IsChain fun p q => goesOn p q = true)
    (hp : f p.char = true) : ∀ q ∈ p :: rest, f q.char = true := by
  induction rest generalizing p with
  | nil => simpa using hp
  | cons q rest ih =>
      obtain ⟨hpq, hrest⟩ := List.isChain_cons_cons.1 hchain
      exact List.forall_mem_cons.2 ⟨hp, ih hrest (hstep p q hpq hp)⟩

theorem piece_of_isChain_goesOn {run : List Placed} (hne : run ≠ [])
    (hchain : run.IsChain fun p q => goesOn p q = true) : Piece run := by
  obtain ⟨p, rest, rfl⟩ := List.exists_cons_of_ne_nil hne
  cases hnumeric : isNumeric p.char with
  | true =>
      refine .numeric hne (forall_of_isChain_goesOn ?_ hchain hnumeric)
      intro p q hpq hp
      rcases goesOn_eq_true_iff.1 hpq with ⟨-, hq⟩ | ⟨hp', -⟩
      · exact hq
      · rw [not_isNumeric_of_isAlpha hp'] at hp
        cases hp
  | false =>
      cases halpha : p.char.isAlpha with
      | true =>
          refine .letters hne (forall_of_isChain_goesOn ?_ hchain halpha)
          intro p q hpq hp
          rcases goesOn_eq_true_iff.1 hpq with ⟨hp', -⟩ | ⟨-, hq⟩
          · rw [not_isAlpha_of_isNumeric hp'] at hp
            cases hp
          · exact hq
      | false =>
          cases rest with
          | nil => exact .single hnumeric halpha
          | cons q rest =>
              have hpq := (List.isChain_cons_cons.1 hchain).1
              simp [goesOn, hnumeric, halpha] at hpq

theorem goesOn_eq_false_iff {run next : List Placed} (hrun : run ≠ [])
    (hnext : next ≠ []) :
    goesOn (run.getLast hrun) (next.head hnext) = false ↔
      Separate (run.map Placed.char) (next.map Placed.char) := by
  rw [Separate, List.getLast?_map, List.getLast?_eq_getLast_of_ne_nil hrun,
    List.head?_map, List.head?_eq_some_head hnext, Bool.eq_false_iff, Ne,
    goesOn_eq_true_iff, not_or]
  simp

theorem pieces_splitBy (placed : List Placed) :
    Pieces placed (placed.splitBy goesOn) where
  flatten := List.flatten_splitBy goesOn placed
  piece run hrun := piece_of_isChain_goesOn (List.ne_nil_of_mem_splitBy hrun)
    (List.isChain_of_mem_splitBy hrun)
  maximal := by
    refine (List.isChain_getLast_head_splitBy goesOn placed).imp ?_
    rintro run next ⟨hrun, hnext, hbreak⟩
    exact (goesOn_eq_false_iff hrun hnext).1 hbreak

theorem Pieces.eq_splitBy {placed : List Placed}
    {pieces : List (List Placed)} (h : Pieces placed pieces) :
    pieces = placed.splitBy goesOn := by
  rw [← h.flatten]
  refine (List.splitBy_flatten ?_ ?_ ?_).symm
  · intro hnil
    exact (h.piece [] hnil).ne_nil rfl
  · exact fun run hrun => (h.piece run hrun).isChain_goesOn
  · refine h.maximal.imp_of_mem_imp ?_
    intro run next hrun hnext hseparate
    exact ⟨(h.piece run hrun).ne_nil, (h.piece next hnext).ne_nil,
      (goesOn_eq_false_iff _ _).2 hseparate⟩

/-! ## Reading one piece -/

/-- The characters that are tokens by themselves. -/
def symbols : List Char :=
  ['+', '-', '*', '/', '^', '(', ')', ',']

theorem exists_ofChar?_iff {c : Char} :
    (∃ token : Token ν, Token.ofChar? c = some token) ↔ c ∈ symbols := by
  constructor
  · rintro ⟨token, htoken⟩
    unfold Token.ofChar? at htoken
    split at htoken <;> first | decide | cases htoken
  · intro hc
    simp only [symbols, List.mem_cons, List.not_mem_nil, or_false] at hc
    rcases hc with rfl | rfl | rfl | rfl | rfl | rfl | rfl | rfl <;>
      exact ⟨_, rfl⟩

/-- White space, and the characters that tokens are written with. -/
def Admitted (c : Char) : Prop :=
  Text.isBlank c = true ∨ isNumeric c = true ∨ c.isAlpha = true ∨ c ∈ symbols

/-- A blank gives nothing; any other piece gives one token, at its first
character. -/
inductive Reads [Literal ν] : List Placed → List (Lexeme ν) → Prop
  | blank {p : Placed} (hblank : Text.isBlank p.char = true) : Reads [p] []
  | token {p : Placed} {rest : List Placed} {token : Token ν}
      (hspelled : token.Spelled ((p :: rest).map Placed.char)) :
      Reads (p :: rest) [⟨token, p.position⟩]

/-- A run that is no number is refused as a whole, and a character that is not
admitted by itself. -/
inductive Refuses : List Placed → ParseError ν → Prop
  | malformed {p : Placed} {rest : List Placed}
      (hrun : ∀ q ∈ p :: rest, isNumeric q.char = true)
      (hnumber : ¬IsNumber ((p :: rest).map Placed.char)) :
      Refuses (p :: rest) (.here p.position
        (.malformedNumber (String.ofList ((p :: rest).map Placed.char))))
  | unknown {p : Placed} (hchar : ¬Admitted p.char) :
      Refuses [p] (.here p.position (.unknownCharacter p.char))

theorem Reads.ofPlaced_eq [Literal ν] {run : List Placed}
    {found : List (Lexeme ν)} (h : Reads run found) :
    ofPlaced run = .ok found := by
  cases h with
  | blank hblank => rw [ofPlaced_blank hblank, ofPlaced]
  | @token p rest token hspelled =>
      have hcut : ofPlaced (p :: rest ++ []) = _ :=
        ofPlaced_spelled hspelled (by rintro q ⟨⟩)
      rwa [List.append_nil, ofPlaced, ok_bind] at hcut

theorem isSome_read?_iff {run : List Char}
    (hrun : ∀ c ∈ run, isNumeric c = true) :
    (Literal.read? (ν := Float) run).isSome = true ↔ IsNumber run := by
  rw [← isSome_readRun?_iff hrun]
  exact Bool.eq_iff_iff.1 Option.isSome_map

theorem Refuses.ofPlaced_eq {run : List Placed} {err : ParseError Float}
    (h : Refuses run err) : ofPlaced run = .error err := by
  cases h with
  | @malformed p rest hrun hnumber =>
      rw [← isSome_read?_iff (forall_char.2 hrun), Option.not_isSome_iff_eq_none]
        at hnumber
      have hrefused : ofPlaced (p :: rest ++ []) = _ :=
        ofPlaced_malformed_run hrun (by rintro q ⟨⟩) hnumber
      rwa [List.append_nil] at hrefused
  | unknown hchar =>
      simp only [Admitted, not_or, Bool.not_eq_true] at hchar
      obtain ⟨hblank, hnumeric, halpha, hsymbol⟩ := hchar
      refine ofPlaced_unknown hblank hnumeric halpha ?_
      rw [Option.eq_none_iff_forall_ne_some]
      exact fun token htoken => hsymbol (exists_ofChar?_iff.1 ⟨token, htoken⟩)

namespace Piece

variable {run : List Placed}

theorem reads_or_refuses (h : Piece run) :
    (∃ found : List (Lexeme Float), Reads run found) ∨
      ∃ err : ParseError Float, Refuses run err := by
  obtain ⟨p, rest, rfl⟩ := List.exists_cons_of_ne_nil h.ne_nil
  have hchars : (p :: rest).map Placed.char ≠ [] := List.cons_ne_nil _ _
  cases h with
  | numeric hne hrun =>
      by_cases hnumber : IsNumber ((p :: rest).map Placed.char)
      · obtain ⟨value, hread⟩ := Option.isSome_iff_exists.1
          ((isSome_read?_iff (forall_char.2 hrun)).2 hnumber)
        exact .inl ⟨_, .token (.number hchars (forall_char.2 hrun) hread)⟩
      · exact .inr ⟨_, .malformed hrun hnumber⟩
  | letters hne hrun =>
      exact .inl ⟨_, .token (.identifier hchars (forall_char.2 hrun))⟩
  | single hnumeric halpha =>
      by_cases hchar : Admitted p.char
      · rcases hchar with hblank | hnumeric' | halpha' | hsymbol
        · exact .inl ⟨[], .blank hblank⟩
        · simp [hnumeric] at hnumeric'
        · simp [halpha] at halpha'
        · obtain ⟨token, htoken⟩ := exists_ofChar?_iff.2 hsymbol
          exact .inl ⟨_, .token (.symbol htoken)⟩
      · exact .inr ⟨_, .unknown hchar⟩

theorem ofPlaced_eq_ok_iff (h : Piece run) {found : List (Lexeme Float)} :
    ofPlaced run = .ok found ↔ Reads run found := by
  refine ⟨fun hfound => ?_, Reads.ofPlaced_eq⟩
  rcases h.reads_or_refuses with ⟨found', hreads⟩ | ⟨err, hrefuses⟩
  · rw [hreads.ofPlaced_eq] at hfound
    exact Except.ok.inj hfound ▸ hreads
  · rw [hrefuses.ofPlaced_eq] at hfound
    cases hfound

theorem ofPlaced_eq_error_iff (h : Piece run) {err : ParseError Float} :
    ofPlaced run = .error err ↔ Refuses run err := by
  refine ⟨fun herr => ?_, Refuses.ofPlaced_eq⟩
  rcases h.reads_or_refuses with ⟨found, hreads⟩ | ⟨err', hrefuses⟩
  · rw [hreads.ofPlaced_eq] at herr
    cases herr
  · rw [hrefuses.ofPlaced_eq] at herr
    exact Except.error.inj herr ▸ hrefuses

/-- What is read has admitted characters only, and its run of digits and points
is a number. -/
theorem exists_reads_iff (h : Piece run) :
    (∃ found : List (Lexeme Float), Reads run found) ↔
      (∀ p ∈ run, Admitted p.char) ∧
        ((∀ p ∈ run, isNumeric p.char = true) →
          IsNumber (run.map Placed.char)) := by
  constructor
  · rintro ⟨found, hreads⟩
    have hrefuses : ∀ err : ParseError Float, ¬Refuses run err := by
      intro err hrefuses
      have heq := hreads.ofPlaced_eq.symm.trans hrefuses.ofPlaced_eq
      cases heq
    constructor
    · cases h with
      | numeric hne hrun => exact fun p hp => .inr (.inl (hrun p hp))
      | letters hne hrun => exact fun p hp => .inr (.inr (.inl (hrun p hp)))
      | @single p hnumeric halpha =>
          rw [List.forall_mem_singleton]
          by_contra hchar
          exact hrefuses _ (.unknown hchar)
    · intro hrun
      obtain ⟨p, rest, rfl⟩ := List.exists_cons_of_ne_nil h.ne_nil
      by_contra hnumber
      exact hrefuses _ (.malformed hrun hnumber)
  · rintro ⟨hadmitted, hnumber⟩
    refine h.reads_or_refuses.resolve_right ?_
    rintro ⟨err, hrefuses⟩
    cases hrefuses with
    | malformed hrun hnot => exact hnot (hnumber hrun)
    | unknown hchar => exact hchar (hadmitted _ List.mem_cons_self)

end Piece

/-! ## Reading the pieces in order -/

theorem separate_flatten {run : List Placed} {pieces : List (List Placed)}
    (hne : ∀ next ∈ pieces, next ≠ [])
    (hmaximal : (run :: pieces).IsChain fun run next =>
      Separate (run.map Placed.char) (next.map Placed.char)) :
    Separate (run.map Placed.char) (pieces.flatten.map Placed.char) := by
  cases pieces with
  | nil => rintro c - d ⟨⟩
  | cons next pieces =>
      obtain ⟨q, rest, rfl⟩ :=
        List.exists_cons_of_ne_nil (hne next List.mem_cons_self)
      exact (List.isChain_cons_cons.1 hmaximal).1

/-- Pieces that do not go on in each other are read one after the other. -/
theorem ofPlaced_flatten [Literal ν] {pieces : List (List Placed)}
    (hne : ∀ run ∈ pieces, run ≠ [])
    (hmaximal : pieces.IsChain fun run next =>
      Separate (run.map Placed.char) (next.map Placed.char)) :
    ofPlaced (ν := ν) pieces.flatten =
      (pieces.mapM ofPlaced >>= fun found => .ok found.flatten) := by
  induction pieces with
  | nil => rw [List.flatten_nil, ofPlaced]; rfl
  | cons run pieces ih =>
      rw [List.forall_mem_cons] at hne
      rw [List.flatten_cons, ofPlaced_append (separate_flatten hne.2 hmaximal),
        ih hne.2 hmaximal.of_cons, List.mapM_cons]
      simp only [bind_assoc, pure_eq_ok, ok_bind, List.flatten_cons]

namespace Pieces

variable {placed : List Placed} {pieces : List (List Placed)}

theorem ofPlaced_eq [Literal ν] (h : Pieces placed pieces) :
    ofPlaced (ν := ν) placed =
      (pieces.mapM ofPlaced >>= fun found => .ok found.flatten) := by
  rw [← h.flatten]
  exact ofPlaced_flatten (fun run hrun => (h.piece run hrun).ne_nil) h.maximal

theorem ofPlaced_eq_ok_iff (h : Pieces placed pieces)
    {lexemes : List (Lexeme Float)} :
    ofPlaced placed = .ok lexemes ↔
      ∃ found, List.Forall₂ Reads pieces found ∧ found.flatten = lexemes := by
  rw [h.ofPlaced_eq, bind_eq_ok_iff]
  refine exists_congr fun found => ?_
  rw [mapM_eq_ok_iff, Except.ok.injEq]
  refine and_congr_left fun _ => ⟨fun hfound => ?_, fun hreads => ?_⟩
  · refine ((List.forall₂_and_left pieces found).2 ⟨h.piece, hfound⟩).imp ?_
    rintro run lexemes ⟨hpiece, heq⟩
    exact hpiece.ofPlaced_eq_ok_iff.1 heq
  · exact hreads.imp fun run lexemes => Reads.ofPlaced_eq

theorem exists_eq_ok_iff (h : Pieces placed pieces) :
    (∃ lexemes : List (Lexeme Float), ofPlaced placed = .ok lexemes) ↔
      (∀ p ∈ placed, Admitted p.char) ∧
        ∀ run ∈ pieces, (∀ p ∈ run, isNumeric p.char = true) →
          IsNumber (run.map Placed.char) := by
  have hall : (∀ p ∈ placed, Admitted p.char) ↔
      ∀ run ∈ pieces, ∀ p ∈ run, Admitted p.char := by
    rw [← h.flatten, List.forall_mem_flatten]
  rw [hall, ← forall₂_and,
    ← forall₂_congr fun run hrun => (h.piece run hrun).exists_reads_iff]
  constructor
  · rintro ⟨lexemes, hlexemes⟩
    obtain ⟨found, hfound, -⟩ := h.ofPlaced_eq_ok_iff.1 hlexemes
    exact exists_of_forall₂ hfound
  · intro hreads
    obtain ⟨found, hfound⟩ := exists_forall₂ hreads
    exact ⟨_, h.ofPlaced_eq_ok_iff.2 ⟨found, hfound, rfl⟩⟩

/-- The first piece that is refused is the error. -/
theorem ofPlaced_eq_error_iff (h : Pieces placed pieces)
    {err : ParseError Float} :
    ofPlaced placed = .error err ↔
      ∃ before run after, pieces = before ++ run :: after ∧
        (∀ earlier ∈ before, ∃ found : List (Lexeme Float),
          Reads earlier found) ∧
        Refuses run err := by
  rw [h.ofPlaced_eq, bind_eq_error_iff]
  simp only [reduceCtorEq, and_false, exists_false, or_false]
  rw [mapM_eq_error_iff]
  refine exists_congr fun before => exists_congr fun run =>
    exists_congr fun after => and_congr_right ?_
  rintro rfl
  have hpiece := h.piece
  rw [List.forall_mem_append, List.forall_mem_cons] at hpiece
  rw [hpiece.2.1.ofPlaced_eq_error_iff]
  refine and_congr_left fun _ => forall₂_congr fun earlier hearlier => ?_
  exact exists_congr fun found =>
    (hpiece.1 earlier hearlier).ofPlaced_eq_ok_iff

end Pieces

/-- Every placed text falls into pieces in one way. It is cut into tokens
exactly when its characters are admitted and its runs of digits and points are
numbers. Then the tokens are those of the pieces in order; otherwise the first
piece that is refused is the error. -/
theorem tokens_of_maximal_runs (placed : List Placed) :
    ∃ pieces, (∀ other, Pieces placed other ↔ other = pieces) ∧
      ((∃ lexemes : List (Lexeme Float), ofPlaced placed = .ok lexemes) ↔
        (∀ p ∈ placed, Admitted p.char) ∧
          ∀ run ∈ pieces, (∀ p ∈ run, isNumeric p.char = true) →
            IsNumber (run.map Placed.char)) ∧
      (∀ lexemes : List (Lexeme Float), ofPlaced placed = .ok lexemes ↔
        ∃ found, List.Forall₂ Reads pieces found ∧
          found.flatten = lexemes) ∧
      ∀ err : ParseError Float, ofPlaced placed = .error err ↔
        ∃ before run after, pieces = before ++ run :: after ∧
          (∀ earlier ∈ before, ∃ found : List (Lexeme Float),
            Reads earlier found) ∧
          Refuses run err := by
  have h := pieces_splitBy placed
  refine ⟨placed.splitBy goesOn, fun other => ?_, h.exists_eq_ok_iff,
    fun lexemes => h.ofPlaced_eq_ok_iff, fun err => h.ofPlaced_eq_error_iff⟩
  exact ⟨Pieces.eq_splitBy, fun heq => heq ▸ h⟩

end SciCalc.Lexeme
