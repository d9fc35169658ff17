import SciCalc.Proofs.Expression.CursorCalls

/-!
# Procedures that follow a parser

A procedure on a cursor may go on forever, stop anywhere and leave any number of
levels open. One that follows a parser does none of this: it ends, among its
tokens, with the outcome of the parser on those that are left, and it changes
nothing but the place of the cursor, which it never moves back. Procedures that
follow parsers can be run one after the other and one level deeper.
-/

namespace SciCalc.Cursor

open Filter

variable {ν α β : Type}

theorem run_bind (procedure : CursorM ν α) (next : α → CursorM ν β)
    (c : Cursor ν) :
    (procedure >>= next).run.run c =
      procedure.run.run c >>= fun left =>
        (ExceptT.bindCont next left.1).run left.2 := rfl

/-! ## Ends -/

/-- From some number of calls on, the procedure ends with this outcome and
leaves the cursor at this place, which is not in front of the one where it
started. -/
structure EndsAt (procedure : ℕ → CursorM ν α) (c : Cursor ν)
    (outcome : Except (ParseError ν) α) (pos : ℕ) : Prop where
  run : ∀ᶠ calls in atTop,
    (procedure calls).run.run c = some (outcome, { c with pos })
  forward : c.pos ≤ pos

namespace EndsAt

variable {procedure : ℕ → CursorM ν α} {next : ℕ → α → CursorM ν β}
variable {c : Cursor ν} {pos pos' : ℕ}

/-- A procedure that makes no calls. -/
theorem of_run {once : CursorM ν α} {outcome : Except (ParseError ν) α}
    (hrun : once.run.run c = some (outcome, { c with pos }))
    (hforward : c.pos ≤ pos) : EndsAt (fun _ => once) c outcome pos :=
  ⟨.of_forall fun _ => hrun, hforward⟩

theorem ends {outcome : Except (ParseError ν) α}
    (h : EndsAt procedure c outcome pos) :
    Ends procedure c outcome { c with pos } :=
  h.run.exists

theorem bind_error {err : ParseError ν}
    (h : EndsAt procedure c (.error err) pos) :
    EndsAt (fun calls => procedure calls >>= next calls) c (.error err)
      pos where
  run := h.run.mono fun calls hrun => by
    rw [run_bind, hrun]
    rfl
  forward := h.forward

theorem bind_ok {value : α} {outcome : Except (ParseError ν) β}
    (h : EndsAt procedure c (.ok value) pos)
    (hnext : EndsAt (fun calls => next calls value) { c with pos } outcome
      pos') :
    EndsAt (fun calls => procedure calls >>= next calls) c outcome pos' where
  run := by
    filter_upwards [h.run, hnext.run] with calls hrun hrest
    rw [run_bind, hrun]
    exact hrest
  forward := h.forward.trans hnext.forward

end EndsAt

/-! ## Following a parser -/

/-- At this cursor the procedure ends as a parser does on the tokens that are
left: with the same error, or with the same value in front of the same tokens.
The place where it ends is among the tokens. -/
def Follows (procedure : ℕ → CursorM ν α) (c : Cursor ν)
    (result : Except (ParseError ν) (α × List (Lexeme ν))) : Prop :=
  ∃ outcome pos, EndsAt procedure c outcome pos ∧ pos ≤ c.tokens.length ∧
    result = outcome.map fun value => (value, c.tokens.drop pos)

/-- Wherever the cursor stands among these tokens, with so many levels open,
the procedure follows the parser. -/
def Mirrors (tokens : List (Lexeme ν)) (depth : ℕ)
    (procedure : ℕ → CursorM ν α)
    (parser : List (Lexeme ν) →
      Except (ParseError ν) (α × List (Lexeme ν))) : Prop :=
  ∀ pos ≤ tokens.length,
    Follows procedure ⟨tokens, pos, depth⟩ (parser (tokens.drop pos))

section Following

variable {procedure : ℕ → CursorM ν α} {next : ℕ → α → CursorM ν β}
variable {c : Cursor ν} {tokens : List (Lexeme ν)} {pos depth : ℕ}

/-- One call more makes no difference from some number of calls on. -/
theorem Follows.of_succ
    {result : Except (ParseError ν) (α × List (Lexeme ν))}
    (h : Follows (fun calls => procedure (calls + 1)) c result) :
    Follows procedure c result := by
  obtain ⟨outcome, pos, hends, hpos, hresult⟩ := h
  refine ⟨outcome, pos, ⟨?_, hends.forward⟩, hpos, hresult⟩
  rw [← map_add_atTop_eq_nat 1]
  exact hends.run

/-- What is done behind a procedure. The next procedure starts where the first
one has ended, with the tokens that its parser left. -/
theorem Follows.bind
    {result : Except (ParseError ν) (α × List (Lexeme ν))}
    {next' : α × List (Lexeme ν) → Except (ParseError ν) (β × List (Lexeme ν))}
    (h : Follows procedure c result)
    (hnext : ∀ value pos, pos ≤ c.tokens.length →
      result = .ok (value, c.tokens.drop pos) →
      Follows (fun calls => next calls value) { c with pos }
        (next' (value, c.tokens.drop pos))) :
    Follows (fun calls => procedure calls >>= next calls) c
      (result >>= next') := by
  obtain ⟨outcome, pos, hends, hpos, rfl⟩ := h
  cases outcome with
  | error err => exact ⟨.error err, pos, hends.bind_error, hpos, rfl⟩
  | ok value =>
      obtain ⟨outcome, pos', hends', hpos', hresult⟩ := hnext value pos hpos rfl
      exact ⟨outcome, pos', hends.bind_ok hends', hpos', hresult⟩

/-- What is done behind a procedure that only moves. -/
theorem EndsAt.follows_bind {value : α}
    {result : Except (ParseError ν) (β × List (Lexeme ν))}
    (h : EndsAt procedure c (.ok value) pos)
    (hnext : Follows (fun calls => next calls value) { c with pos } result) :
    Follows (fun calls => procedure calls >>= next calls) c result := by
  obtain ⟨outcome, pos', hends, hpos, hresult⟩ := hnext
  exact ⟨outcome, pos', h.bind_ok hends, hpos, hresult⟩

theorem follows_pure (hpos : pos ≤ tokens.length) (value : α) :
    Follows (fun _ => pure value) ⟨tokens, pos, depth⟩
      (.ok (value, tokens.drop pos)) :=
  ⟨.ok value, pos, .of_run rfl le_rfl, hpos, rfl⟩

theorem follows_throw (hpos : pos ≤ tokens.length) (err : ParseError ν) :
    Follows (fun _ => (throw err : CursorM ν α)) ⟨tokens, pos, depth⟩
      (.error err) :=
  ⟨.error err, pos, .of_run rfl le_rfl, hpos, rfl⟩

end Following

/-! ## Moving -/

section Moving

variable {tokens left rest : List (Lexeme ν)} {next : Lexeme ν}
variable {pos depth : ℕ}

/-- Behind the next token. -/
theorem drop_succ (hleft : tokens.drop pos = next :: rest) :
    tokens.drop (pos + 1) = rest ∧ pos + 1 ≤ tokens.length := by
  have htail := congrArg List.tail hleft
  have hlength := congrArg List.length hleft
  rw [List.tail_drop] at htail
  rw [List.length_drop, List.length_cons] at hlength
  exact ⟨htail, by omega⟩

theorem getElem?_pos (hleft : tokens.drop pos = left) :
    tokens[pos]? = left.head? := by
  rw [← hleft, List.head?_drop]

theorem get_ends (c : Cursor ν) :
    EndsAt (fun _ => (get : CursorM ν (Cursor ν))) c (.ok c) c.pos :=
  .of_run rfl le_rfl

theorem peek_ends (hleft : tokens.drop pos = left) :
    EndsAt (fun _ => peek) ⟨tokens, pos, depth⟩ (.ok left.head?) pos := by
  rw [← getElem?_pos hleft]
  exact .of_run rfl le_rfl

theorem skip_ends :
    EndsAt (fun _ => skip) ⟨tokens, pos, depth⟩ (.ok ()) (pos + 1) :=
  .of_run rfl (Nat.le_succ pos)

theorem advance_ends (hleft : tokens.drop pos = next :: rest) :
    EndsAt (fun _ => advance) ⟨tokens, pos, depth⟩ (.ok (some next))
      (pos + 1) := by
  refine (peek_ends hleft).bind_ok ?_
  exact .of_run rfl (Nat.le_succ pos)

theorem advance_ends_nil (hleft : tokens.drop pos = []) :
    EndsAt (fun _ => advance) ⟨tokens, pos, depth⟩ (.ok none) pos := by
  refine (peek_ends hleft).bind_ok ?_
  exact .of_run rfl le_rfl

theorem Mark.isToken_iff (mark : Mark) (token : Token ν) :
    mark.isToken token = true ↔ token = mark.token := by
  constructor
  · intro htoken
    unfold isToken at htoken
    split at htoken
    · rfl
    · rfl
    · rfl
    · cases htoken
  · rintro rfl
    cases mark <;> rfl

theorem eat_ends_found {mark : Mark} {position : ℕ}
    (hleft : tokens.drop pos = ⟨mark.token, position⟩ :: rest) :
    EndsAt (fun _ => eat mark) ⟨tokens, pos, depth⟩ (.ok true) (pos + 1) := by
  refine (peek_ends hleft).bind_ok ?_
  rw [List.head?_cons, Option.any_some, (mark.isToken_iff _).2 rfl]
  exact .of_run rfl (Nat.le_succ pos)

theorem eat_ends_missed {mark : Mark}
    (hother : ∀ position rest,
      tokens.drop pos = ⟨mark.token, position⟩ :: rest → False) :
    EndsAt (fun _ => eat mark) ⟨tokens, pos, depth⟩ (.ok false) pos := by
  refine (peek_ends rfl).bind_ok ?_
  have hmissed : ((tokens.drop pos).head?.any fun next =>
      mark.isToken next.token) = false := by
    cases hleft : tokens.drop pos with
    | nil => rfl
    | cons next rest =>
        obtain ⟨token, position⟩ := next
        apply eq_false_of_ne_true
        intro hfound
        obtain rfl : token = mark.token := (mark.isToken_iff token).1 hfound
        exact hother position rest hleft
  rw [hmissed]
  exact .of_run rfl le_rfl

end Moving

/-! ## Levels -/

section Levels

variable {procedure : ℕ → CursorM ν α} {tokens : List (Lexeme ν)}
variable {pos depth position : ℕ}

theorem run_enter (position : ℕ) (c : Cursor ν) :
    (enter position).run.run c =
      if maxNesting ≤ c.depth then some (.error (.here position .tooDeep), c)
      else some (.ok (), { c with depth := c.depth + 1 }) := by
  have hget : (enter position).run.run c =
      (do if maxNesting ≤ c.depth then throw (.here position .tooDeep)
          modify fun c => { c with depth := c.depth + 1 } :
        CursorM ν Unit).run.run c := rfl
  rw [hget]
  split <;> rfl

theorem run_nested (position : ℕ) (procedure : CursorM ν α) (c : Cursor ν) :
    (nested position procedure).run.run c =
      if maxNesting ≤ c.depth then some (.error (.here position .tooDeep), c)
      else procedure.run.run { c with depth := c.depth + 1 } >>= fun left =>
        (leave left.1).run.run left.2 := by
  have hbind : (nested position procedure).run.run c =
      (enter position).run.run c >>= fun opened =>
        (ExceptT.bindCont (fun _ => ExceptT.mk (procedure.run >>= leave))
          opened.1).run opened.2 := rfl
  rw [hbind, run_enter]
  split <;> rfl

/-- The level that is opened is closed again, whatever the outcome. -/
theorem nested_follows (hdepth : depth < maxNesting)
    {result : Except (ParseError ν) (α × List (Lexeme ν))}
    (h : Follows procedure ⟨tokens, pos, depth + 1⟩ result) :
    Follows (fun calls => nested position (procedure calls))
      ⟨tokens, pos, depth⟩ result := by
  obtain ⟨outcome, final, hends, hfinal, hresult⟩ := h
  refine ⟨outcome, final, ⟨?_, hends.forward⟩, hfinal, hresult⟩
  filter_upwards [hends.run] with calls hrun
  rw [run_nested, if_neg (Nat.not_le.2 hdepth), hrun]
  rfl

theorem nested_full (hpos : pos ≤ tokens.length) (hdepth : maxNesting ≤ depth) :
    Follows (fun calls => nested position (procedure calls))
      ⟨tokens, pos, depth⟩ (.error (.here position .tooDeep)) := by
  refine ⟨.error (.here position .tooDeep), pos, ⟨?_, le_rfl⟩, hpos, rfl⟩
  exact .of_forall fun calls =>
    (run_nested position (procedure calls) _).trans (if_pos hdepth)

end Levels

end SciCalc.Cursor
