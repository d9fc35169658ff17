import SciCalc.Proofs.Outcome
import SciCalc.Proofs.Text.CharacterClass
import SciCalc.Proofs.Text.Lines
import SciCalc.Proofs.Text.Trim
import SciCalc.Settings.Basic

/-!
# Settings documents, line by line

A document is read as one text from which pairs are taken as long as there are
any, and white space is passed over across line ends. Still no pair shares its
line with another or goes on in the next one: reading a document is reading its
relevant lines, each by itself, up to the first that is no pair.
-/

namespace SciCalc

namespace Settings

open Outcome Text

/-! ## One line -/

/-- The line has the form `key: rest`, with blanks and tabs in front of the key
and of the colon, and its value is what trimming leaves of the rest. -/
inductive IsPair : List Char → List Char → List Char → Prop
  | intro {indent key gap rest : List Char} {first : Char}
      (hindent : ∀ c ∈ indent, isSpace c = true)
      (hfirst : isKeyStart first = true)
      (hkey : ∀ c ∈ key, isKeyChar c = true)
      (hgap : ∀ c ∈ gap, isSpace c = true) :
      IsPair (indent ++ first :: key ++ gap ++ ':' :: rest) (first :: key)
        (trim rest)

/-- The key and the value of a line. -/
def readLine? (line : List Char) : Option (List Char × List Char) := do
  let (key, rest) ← takeKey? (line.dropWhile isSpace)
  match rest.dropWhile isSpace with
  | ':' :: rest => return (key, trim rest)
  | _ => none

theorem not_isSpace_of_isKeyStart {c : Char} (h : isKeyStart c = true) :
    isSpace c = false := by
  rw [Bool.eq_false_iff]
  intro hspace
  have hcases : c = ' ' ∨ c = '\t' := by simpa [isSpace] using hspace
  rcases hcases with rfl | rfl <;> cases h

theorem not_isKeyChar_of_isSpace {c : Char} (h : isSpace c = true) :
    isKeyChar c = false := by
  have hcases : c = ' ' ∨ c = '\t' := by simpa [isSpace] using h
  rcases hcases with rfl | rfl <;> decide

theorem takeKey?_eq_some_iff {text key rest : List Char} :
    takeKey? text = some (key, rest) ↔
      ∃ first others, text = first :: others ∧ isKeyStart first = true ∧
        key = first :: others.takeWhile isKeyChar ∧
        rest = others.dropWhile isKeyChar := by
  cases text with
  | nil => simp [takeKey?]
  | cons first others =>
      rw [takeKey?]
      split
      · next hfirst =>
        constructor
        · rintro ⟨⟩
          exact ⟨first, others, rfl, hfirst, rfl, rfl⟩
        · rintro ⟨_, _, ⟨⟩, -, rfl, rfl⟩
          rfl
      · next hfirst => simp [hfirst]

theorem readLine?_eq_some_iff {line key value : List Char} :
    readLine? line = some (key, value) ↔ IsPair line key value := by
  constructor
  · intro h
    obtain ⟨⟨key', rest⟩, hkey, h⟩ := Option.bind_eq_some_iff.1 h
    obtain ⟨first, others, hline, hfirst, rfl, rfl⟩ := takeKey?_eq_some_iff.1 hkey
    dsimp only at h
    split at h
    · next rest hrest =>
      cases h
      have hsplit : line = line.takeWhile isSpace ++
          first :: others.takeWhile isKeyChar ++
            (others.dropWhile isKeyChar).takeWhile isSpace ++ ':' :: rest := by
        conv_lhs => rw [← List.takeWhile_append_dropWhile (p := isSpace)
          (l := line), hline]
        simp [← hrest]
      rw [hsplit]
      exact .intro (fun c hc => List.mem_takeWhile_imp hc) hfirst
        (fun c hc => List.mem_takeWhile_imp hc)
        (fun c hc => List.mem_takeWhile_imp hc)
    · cases h
  · intro h
    cases h with
    | @intro indent key gap rest first hindent hfirst hkey hgap =>
        have hstop : ∀ c ∈ (gap ++ ':' :: rest).head?, isKeyChar c = false := by
          cases gap with
          | nil =>
              rintro c ⟨⟩
              rfl
          | cons c gap =>
              rintro c ⟨⟩
              exact not_isKeyChar_of_isSpace (hgap c List.mem_cons_self)
        obtain ⟨htake, hdrop⟩ := takeWhile_append_of_stops
          fun _ : ∀ c ∈ key, isKeyChar c = true => hstop
        have hbody : (indent ++ first :: key ++ gap ++ ':' :: rest).dropWhile
            isSpace = first :: (key ++ (gap ++ ':' :: rest)) := by
          rw [List.append_assoc, List.append_assoc,
            List.dropWhile_append_of_pos hindent, List.cons_append,
            List.dropWhile_cons_of_neg
              (by simp [not_isSpace_of_isKeyStart hfirst])]
        have hcolon : (gap ++ ':' :: rest).dropWhile isSpace = ':' :: rest := by
          rw [List.dropWhile_append_of_pos hgap]
          rfl
        rw [readLine?, hbody, takeKey?, if_pos hfirst, htake, hdrop,
          List.takeWhile_eq_self_iff.2 hkey, List.dropWhile_eq_nil_iff.2 hkey,
          List.nil_append]
        simp [hcolon]

/-- What a line is read as: a pair, or an error that quotes it. -/
def entry (line : List Char) :
    Except (List Char) (List Char × List Char) :=
  match readLine? line with
  | some pair => .ok pair
  | none => .error (trim line)

theorem entry_eq_ok_iff {line key value : List Char} :
    entry line = .ok (key, value) ↔ IsPair line key value := by
  rw [entry, ← readLine?_eq_some_iff]
  split
  · next pair hpair => simp [hpair]
  · next hpair => simp [hpair]

theorem entry_eq_error_iff {line quoted : List Char} :
    entry line = .error quoted ↔
      (¬∃ key value, IsPair line key value) ∧ quoted = trim line := by
  simp only [← readLine?_eq_some_iff]
  rw [entry]
  split
  · next pair hpair => simpa [hpair] using fun h => absurd rfl (h pair.1 pair.2)
  · next hpair => simp [hpair, eq_comm]

/-! ## From the text to its lines -/

theorem isBlank_of_isSpace {c : Char} (h : isSpace c = true) :
    isBlank c = true := by
  have hcases : c = ' ' ∨ c = '\t' := by simpa [isSpace] using h
  rcases hcases with rfl | rfl <;> decide

theorem isBlank_of_isSpaceOrBreak {c : Char} (h : isSpaceOrBreak c = true) :
    isBlank c = true := by
  have hcases : ((c = ' ' ∨ c = '\t') ∨ c = '\r') ∨ c = '\n' := by
    simpa [isSpaceOrBreak, isSpace] using h
  rcases hcases with ((rfl | rfl) | rfl) | rfl <;> decide

/-- The lines behind a line, each behind a line feed. -/
def following (others : List (List Char)) : List Char :=
  others.flatMap ('\n' :: ·)

theorem joinLines_eq (line : List Char) (others : List (List Char)) :
    joinLines (line :: others) = line ++ following others := by
  induction others generalizing line with
  | nil => simp [joinLines, List.intercalate, following]
  | cons next others ih =>
      rw [joinLines_cons, ih]
      simp [following]

theorem length_le_following (others : List (List Char)) :
    others.length ≤ (following others).length := by
  induction others with
  | nil => rfl
  | cons next others ih =>
      have hcons : following (next :: others) =
          '\n' :: next ++ following others := rfl
      rw [hcons, List.length_append, List.length_cons, List.length_cons]
      omega

/-- A run of characters other than a line feed ends where its line does. -/
theorem run_following {f : Char → Bool} (hf : f '\n' = false)
    (run : List Char) (others : List (List Char)) :
    (run ++ following others).takeWhile f = run.takeWhile f ∧
      (run ++ following others).dropWhile f =
        run.dropWhile f ++ following others := by
  apply takeWhile_append_of_stops
  rintro - c hc
  cases others with
  | nil => cases hc
  | cons next others =>
      cases hc
      exact hf

/-- A relevant line as it stands in the text: it has no line end in it, and is
not all white space. -/
structure Solid (line : List Char) : Prop where
  unbroken : Unbroken line
  inked : trim line ≠ []

section Line

variable {line : List Char}

theorem isBreak_of_unbroken (h : Unbroken line) :
    ∀ c ∈ line, isBreak c = false := by
  intro c hc
  have hfeed : c ≠ '\n' := fun heq => h.1 (heq ▸ hc)
  have hreturn : c ≠ '\r' := fun heq => h.2 (heq ▸ hc)
  simp [isBreak, hfeed, hreturn]

theorem unbroken_of_sublist {part : List Char} (hpart : part.Sublist line)
    (h : Unbroken line) : Unbroken part :=
  ⟨fun hmem => h.1 (hpart.subset hmem), fun hmem => h.2 (hpart.subset hmem)⟩

/-- Within a line there is no line end to be passed over. -/
theorem dropWhile_isSpaceOrBreak (h : Unbroken line) :
    line.dropWhile isSpaceOrBreak = line.dropWhile isSpace := by
  have hbreak := isBreak_of_unbroken h
  induction line with
  | nil => rfl
  | cons c line ih =>
      rw [List.forall_mem_cons] at hbreak
      have hsame : isSpaceOrBreak c = isSpace c := by
        have hc := hbreak.1
        rw [isBreak, Bool.or_eq_false_iff] at hc
        rw [isSpaceOrBreak, hc.1, hc.2, Bool.or_false, Bool.or_false]
      rw [List.dropWhile_cons, List.dropWhile_cons, hsame,
        ih (unbroken_of_sublist (List.sublist_cons_self c line) h) hbreak.2]

/-- White space in front of a line is passed over; it ends within the line. -/
theorem dropWhile_following (h : Solid line) (others : List (List Char)) :
    (line ++ following others).dropWhile isSpaceOrBreak =
      line.dropWhile isSpace ++ following others := by
  rw [← dropWhile_isSpaceOrBreak h.unbroken]
  apply (takeWhile_append_of_stops _).2
  intro hall
  exact absurd (trim_eq_nil_iff.2 fun c hc =>
    isBlank_of_isSpaceOrBreak (hall c hc)) h.inked

/-- A line without the white space in front is as good. -/
theorem Solid.dropWhile (h : Solid line) : Solid (line.dropWhile isSpace) where
  unbroken := unbroken_of_sublist (List.dropWhile_sublist _) h.unbroken
  inked := by
    rw [trim_dropWhile fun c => isBlank_of_isSpace]
    exact h.inked

theorem entry_dropWhile (line : List Char) :
    entry (line.dropWhile isSpace) = entry line := by
  rw [entry, entry, readLine?, readLine?, List.dropWhile_idempotent,
    trim_dropWhile fun c => isBlank_of_isSpace]

theorem takeValue?_following (h : Unbroken line) (others : List (List Char)) :
    takeValue? (line ++ following others) = some (line, following others) := by
  have hbreak : ∀ c ∈ line, (!isBreak c) = true := by
    intro c hc
    rw [isBreak_of_unbroken h c hc]
    rfl
  obtain ⟨htake, hdrop⟩ :=
    run_following (f := fun c => !isBreak c) rfl line others
  rw [List.takeWhile_eq_self_iff.2 hbreak] at htake
  rw [List.dropWhile_eq_nil_iff.2 hbreak, List.nil_append] at hdrop
  rw [takeValue?, htake, hdrop]
  cases others <;> rfl

theorem takeKey?_following (h : line ≠ []) (others : List (List Char)) :
    takeKey? (line ++ following others) =
      (takeKey? line).map fun found =>
        (found.1, found.2 ++ following others) := by
  obtain ⟨first, rest, rfl⟩ := List.exists_cons_of_ne_nil h
  obtain ⟨htake, hdrop⟩ := run_following (f := isKeyChar) rfl rest others
  rw [List.cons_append, takeKey?, takeKey?, htake, hdrop]
  split <;> rfl

/-- A pair is taken from the line that comes first, whatever follows it. -/
theorem takePair?_following (h : Solid line) (others : List (List Char)) :
    takePair? (line ++ following others) =
      (readLine? line).map fun pair =>
        (pair, (following others).dropWhile isSpaceOrBreak) := by
  have hbody : line.dropWhile isSpace ≠ [] := fun hnil =>
    h.dropWhile.inked (by rw [hnil]; rfl)
  have hafter := fun run => (run_following (f := isSpace) rfl run others).2
  rw [takePair?, dropWhile_following h, takeKey?_following hbody, readLine?]
  cases hkey : takeKey? (line.dropWhile isSpace) with
  | none => rfl
  | some found =>
      obtain ⟨key, rest⟩ := found
      obtain ⟨first, word, hword, -, -, rfl⟩ := takeKey?_eq_some_iff.1 hkey
      simp only [Option.map_some, Option.bind_eq_bind, Option.bind_some, hafter]
      cases hrest : (word.dropWhile isKeyChar).dropWhile isSpace with
      | nil => cases others <;> rfl
      | cons c value =>
          by_cases hcolon : c = ':'
          · subst hcolon
            have hpart : (value.dropWhile isSpace).Sublist line := by
              have hvalue : (':' :: value).Sublist word := hrest ▸
                (List.dropWhile_sublist _).trans (List.dropWhile_sublist _)
              have hbehind : (first :: word).Sublist line :=
                hword ▸ List.dropWhile_sublist _
              exact (List.dropWhile_sublist _).trans <|
                (List.sublist_cons_self _ _).trans <| hvalue.trans <|
                  (List.sublist_cons_self _ _).trans hbehind
            simp only [List.cons_append, hafter,
              takeValue?_following (unbroken_of_sublist hpart h.unbroken),
              Option.bind_some, trim_dropWhile fun c => isBlank_of_isSpace]
            rfl
          · simp [hcolon]

end Line

/-! ## All lines -/

/-- What is made of the pairs that have been taken and of the text that is
left. -/
def conclude (taken : List (List Char × List Char) × List Char) :
    Except (List Char) (List (List Char × List Char)) :=
  if (trim taken.2).isEmpty then .ok taken.1
  else .error (trim ((lines taken.2).headD taken.2))

theorem conclude_cons (pair : List Char × List Char)
    (taken : List (List Char × List Char) × List Char) :
    conclude (pair :: taken.1, taken.2) =
      (conclude taken).map (pair :: ·) := by
  rw [conclude, conclude, apply_ite (Except.map (pair :: ·))]
  rfl

/-- A text that begins with a line that is no pair is at fault for this line. -/
theorem conclude_of_line {line : List Char} {others : List (List Char)}
    (hsolid : ∀ l ∈ line :: others, Solid l) :
    conclude ([], line ++ following others) = .error (trim line) := by
  have hne : ∀ l ∈ line :: others, l ≠ [] := by
    rintro l hl rfl
    exact (hsolid [] hl).inked rfl
  have hlines := lines_joinLines (fun l hl => (hsolid l hl).unbroken) hne
  rw [joinLines_eq] at hlines
  have hinked : (trim (line ++ following others)).isEmpty = false := by
    rw [List.isEmpty_eq_false_iff, ne_eq, trim_eq_nil_iff]
    intro hblank
    exact (hsolid line List.mem_cons_self).inked
      (trim_eq_nil_iff.2 fun c hc => hblank c (List.mem_append_left _ hc))
  rw [conclude, hinked, hlines]
  rfl

theorem takePairs_nil (rounds : Nat) : takePairs rounds [] = ([], []) := by
  cases rounds <;> rfl

/-- One round takes the pair of the first line. -/
theorem takePairs_following {line : List Char} (h : Solid line)
    (others : List (List Char)) (rounds : Nat) :
    conclude (takePairs (rounds + 1) (line ++ following others)) =
      match readLine? line with
      | none => conclude ([], line ++ following others)
      | some pair =>
        (conclude (takePairs rounds
          ((following others).dropWhile isSpaceOrBreak))).map (pair :: ·) := by
  rw [takePairs, takePair?_following h]
  cases readLine? line with
  | none => rfl
  | some pair => exact conclude_cons pair _

/-- The induction is on the lines behind the first one; each round takes a
line, and leaves the next one without the white space in front of it. -/
theorem conclude_takePairs {line : List Char} {others : List (List Char)}
    (hsolid : ∀ l ∈ line :: others, Solid l) {rounds : Nat}
    (hrounds : others.length < rounds) :
    conclude (takePairs rounds (line ++ following others)) =
      (line :: others).mapM entry := by
  induction others generalizing line rounds with
  | nil =>
      obtain ⟨rounds, rfl⟩ :=
        Nat.exists_eq_succ_of_ne_zero (Nat.ne_zero_of_lt hrounds)
      rw [takePairs_following (hsolid line List.mem_cons_self),
        List.mapM_cons, entry]
      cases readLine? line with
      | none => exact conclude_of_line hsolid
      | some pair =>
          simp only [following, List.flatMap_nil, List.dropWhile_nil,
            takePairs_nil]
          rfl
  | cons next others ih =>
      obtain ⟨rounds, rfl⟩ :=
        Nat.exists_eq_succ_of_ne_zero (Nat.ne_zero_of_lt hrounds)
      rw [takePairs_following (hsolid line List.mem_cons_self),
        List.mapM_cons, entry]
      cases readLine? line with
      | none => exact conclude_of_line hsolid
      | some pair =>
          rw [List.forall_mem_cons, List.forall_mem_cons] at hsolid
          have hnext : (following (next :: others)).dropWhile isSpaceOrBreak =
              next.dropWhile isSpace ++ following others :=
            dropWhile_following hsolid.2.1 others
          have hrest := ih (List.forall_mem_cons.2
            ⟨hsolid.2.1.dropWhile, hsolid.2.2⟩) (Nat.lt_of_succ_lt_succ hrounds)
          rw [List.mapM_cons, entry_dropWhile, ← List.mapM_cons] at hrest
          simp only [hnext, hrest]
          rfl

/-- The lines of a document that count. -/
def relevantLines (document : List Char) : List (List Char) :=
  (lines document).filter isRelevant

theorem solid_of_mem_relevantLines {document : List Char}
    (h : ReturnsEndLines document) :
    ∀ line ∈ relevantLines document, Solid line := by
  intro line hline
  obtain ⟨hmem, hrelevant⟩ := List.mem_filter.1 hline
  refine ⟨h.unbroken_of_mem_lines line hmem, ?_⟩
  rw [isRelevant, Bool.and_eq_true] at hrelevant
  simpa using hrelevant.1

/-- A document is read by reading each of its relevant lines. -/
theorem pairs_eq_mapM {document : List Char} (h : ReturnsEndLines document) :
    pairs document = (relevantLines document).mapM entry := by
  have hsolid := solid_of_mem_relevantLines h
  have hpairs : pairs document = conclude
      (takePairs (joinLines (relevantLines document)).length
        (joinLines (relevantLines document))) := rfl
  rw [hpairs]
  cases hlines : relevantLines document with
  | nil => rfl
  | cons line others =>
      rw [hlines] at hsolid
      have hne : line ≠ [] := by
        rintro rfl
        exact (hsolid [] List.mem_cons_self).inked rfl
      rw [joinLines_eq]
      apply conclude_takePairs hsolid
      -- a line is not empty, and each further one has a line feed in front
      calc
        others.length ≤ (following others).length := length_le_following others
        _ < (line ++ following others).length := by
          rw [List.length_append]
          exact Nat.lt_add_of_pos_left (List.length_pos_of_ne_nil hne)

/-- The relevant lines of a document behind whole lines. -/
theorem relevantLines_append {document : List Char} (h : IsWhole document)
    (document' : List Char) :
    relevantLines (document ++ document') =
      relevantLines document ++ relevantLines document' := by
  rw [relevantLines, lines_append h, List.filter_append]
  rfl

/-- A line feed behind the last line makes no difference. -/
theorem relevantLines_feed {document : List Char}
    (h : ReturnsEndLines document) :
    relevantLines (document ++ ['\n']) = relevantLines document := by
  induction document using line_induction with
  | last line hfeed =>
      rw [relevantLines, lines_append_feed hfeed,
        dropReturn_of_not_mem (h.not_mem hfeed)]
      by_cases hnil : line = []
      · subst hnil
        rfl
      · rw [relevantLines, lines_of_not_mem hfeed hnil]
        rfl
  | first line rest hfeed ih =>
      have hwhole := isWhole_concat line
      rw [List.append_cons line] at h ⊢
      rw [List.append_assoc, relevantLines_append hwhole,
        relevantLines_append hwhole, ih h.behind]

/-- The relevant lines of two documents, one behind the other. -/
theorem relevantLines_join {document : List Char}
    (h : ReturnsEndLines document) (document' : List Char) :
    relevantLines (document ++ '\n' :: document') =
      relevantLines document ++ relevantLines document' := by
  rw [List.append_cons, relevantLines_append (isWhole_concat document),
    relevantLines_feed h]

/-- The pairs of a document as texts, from its relevant lines. -/
theorem readPairs_eq {document : String}
    (h : ReturnsEndLines document.toList) :
    readPairs document =
      (((relevantLines document.toList).mapM entry).map
        (List.map fun pair => (String.ofList pair.1, String.ofList pair.2))
      ).mapError fun text => .line (String.ofList text) := by
  rw [readPairs, pairs_eq_mapM h]
  cases (relevantLines document.toList).mapM entry <;> rfl

/-- Documents with the same relevant lines are read alike. -/
theorem readPairs_congr {document document' : String}
    (h : ReturnsEndLines document.toList)
    (h' : ReturnsEndLines document'.toList)
    (hlines : relevantLines document.toList =
      relevantLines document'.toList) :
    readPairs document = readPairs document' := by
  rw [readPairs_eq h, readPairs_eq h', hlines]

theorem readPairs_eq_ok_iff {document : String}
    (h : ReturnsEndLines document.toList)
    {found : List (String × String)} :
    readPairs document = .ok found ↔
      List.Forall₂ (fun line pair => IsPair line pair.1.toList pair.2.toList)
        (relevantLines document.toList) found := by
  rw [readPairs_eq h, mapError_eq_ok_iff, map_eq_ok_iff]
  constructor
  · rintro ⟨pairs, hpairs, rfl⟩
    rw [List.forall₂_map_right_iff]
    apply (mapM_eq_ok_iff.1 hpairs).imp
    rintro line ⟨key, value⟩ hline
    simpa using entry_eq_ok_iff.1 hline
  · intro hfound
    refine ⟨found.map fun pair => (pair.1.toList, pair.2.toList), ?_, ?_⟩
    · rw [mapM_eq_ok_iff, List.forall₂_map_right_iff]
      exact hfound.imp fun line pair hline => entry_eq_ok_iff.2 hline
    · rw [List.map_map]
      calc
        found.map _ = found.map id := List.map_congr_left fun _ _ => by simp
        _ = found := List.map_id found

/-- Each line has its pair. -/
theorem forall_isPair_of_forall₂ {ls : List (List Char)}
    {found : List (String × String)}
    (h : List.Forall₂
      (fun line pair => IsPair line pair.1.toList pair.2.toList) ls found) :
    ∀ line ∈ ls, ∃ key value, IsPair line key value := by
  induction h with
  | nil => simp
  | cons hpair h ih => exact List.forall_mem_cons.2 ⟨⟨_, _, hpair⟩, ih⟩

theorem exists_forall₂_isPair {ls : List (List Char)}
    (h : ∀ line ∈ ls, ∃ key value, IsPair line key value) :
    ∃ found : List (String × String), List.Forall₂
      (fun line pair => IsPair line pair.1.toList pair.2.toList) ls found := by
  apply exists_forall₂
  intro line hline
  obtain ⟨key, value, hpair⟩ := h line hline
  exact ⟨(String.ofList key, String.ofList value), by simpa using hpair⟩

theorem readPairs_eq_error_iff {document : String}
    (h : ReturnsEndLines document.toList) {err : SettingsError} :
    readPairs document = .error err ↔
      ∃ before line after,
        relevantLines document.toList = before ++ line :: after ∧
        (∀ l ∈ before, ∃ key value, IsPair l key value) ∧
        (¬∃ key value, IsPair line key value) ∧
        err = .line (String.ofList (trim line)) := by
  have hmap : readPairs document = .error err ↔ ∃ quoted,
      (relevantLines document.toList).mapM entry = .error quoted ∧
        err = .line (String.ofList quoted) := by
    rw [readPairs_eq h]
    cases (relevantLines document.toList).mapM entry <;>
      simp [Except.map, Except.mapError, eq_comm]
  rw [hmap]
  simp only [mapM_eq_error_iff, entry_eq_error_iff, Prod.exists,
    entry_eq_ok_iff]
  constructor
  · rintro ⟨_, ⟨before, line, after, hlines, hbefore, hline, rfl⟩, rfl⟩
    exact ⟨before, line, after, hlines, hbefore, hline, rfl⟩
  · rintro ⟨before, line, after, hlines, hbefore, hline, rfl⟩
    exact ⟨_, ⟨before, line, after, hlines, hbefore, hline, rfl⟩, rfl⟩

theorem relevantLines_of_forall {extra : List Char}
    (hextra : ∀ line ∈ lines extra, isRelevant line = false) :
    relevantLines extra = [] :=
  List.filter_eq_nil_iff.2 fun line hline => by simp [hextra line hline]

end Settings

open Settings Text

/-- A document whose carriage returns belong to line ends is read line by line.
It is accepted when each of its relevant lines is a pair, and gives these pairs
in order; otherwise the first relevant line that is no pair is quoted. So lines
that do not count can be put in before any line or at the end, and a document
behind another one adds its pairs to those of the other. -/
theorem settings_read_line_by_line :
    (∀ document : String, ReturnsEndLines document.toList →
      ((∃ found, readPairs document = .ok found) ↔
        ∀ line ∈ relevantLines document.toList,
          ∃ key value, IsPair line key value) ∧
      (∀ found, readPairs document = .ok found ↔
        List.Forall₂
          (fun line pair => IsPair line pair.1.toList pair.2.toList)
          (relevantLines document.toList) found) ∧
      ∀ err, readPairs document = .error err ↔
        ∃ before line after,
          relevantLines document.toList = before ++ line :: after ∧
          (∀ l ∈ before, ∃ key value, IsPair l key value) ∧
          (¬∃ key value, IsPair line key value) ∧
          err = .line (String.ofList (trim line))) ∧
    (∀ extra : String, ReturnsEndLines extra.toList →
      (∀ line ∈ lines extra.toList, isRelevant line = false) →
      (∀ before after : String, IsWhole before.toList →
        IsWhole extra.toList → ReturnsEndLines (before ++ after).toList →
        readPairs (before ++ extra ++ after) = readPairs (before ++ after)) ∧
      ∀ document : String, ReturnsEndLines document.toList →
        readPairs (document ++ "\n" ++ extra) = readPairs document) ∧
    ∀ document document' : String, ReturnsEndLines document.toList →
      ReturnsEndLines document'.toList → ∀ found found',
      readPairs document = .ok found → readPairs document' = .ok found' →
      readPairs (document ++ "\n" ++ document') = .ok (found ++ found') := by
  have hjoined : ∀ document document' : String,
      (document ++ "\n" ++ document').toList =
        document.toList ++ '\n' :: document'.toList := by
    intro document document'
    simp
  refine ⟨?_, ?_, ?_⟩
  · intro document h
    refine ⟨?_, fun found => readPairs_eq_ok_iff h,
      fun err => readPairs_eq_error_iff h⟩
    constructor
    · rintro ⟨found, hfound⟩
      exact forall_isPair_of_forall₂ ((readPairs_eq_ok_iff h).1 hfound)
    · intro hlines
      obtain ⟨found, hfound⟩ := exists_forall₂_isPair hlines
      exact ⟨found, (readPairs_eq_ok_iff h).2 hfound⟩
  · intro extra hextra hirrelevant
    have hnone := relevantLines_of_forall hirrelevant
    constructor
    · intro before after hbefore hwhole h
      rw [String.toList_append] at h
      apply readPairs_congr
      · rw [String.toList_append, String.toList_append, List.append_assoc]
        exact (h.ahead hbefore).append (hextra.append h.behind)
      · rw [String.toList_append]
        exact h
      · rw [String.toList_append, String.toList_append, String.toList_append,
          List.append_assoc, relevantLines_append hbefore,
          relevantLines_append hwhole, relevantLines_append hbefore, hnone,
          List.nil_append]
    · intro document h
      apply readPairs_congr _ h
      · rw [hjoined, relevantLines_join h, hnone, List.append_nil]
      · rw [hjoined]
        exact h.append hextra.feed
  · intro document document' h h' found found' hfound hfound'
    rw [readPairs_eq_ok_iff h] at hfound
    rw [readPairs_eq_ok_iff h'] at hfound'
    rw [readPairs_eq_ok_iff (by rw [hjoined]; exact h.append h'.feed), hjoined,
      relevantLines_join h]
    exact List.rel_append hfound hfound'

/-- Two documents, the first one written with carriage returns; the second one
has a line that is no pair. -/
theorem settings_read_with_carriage_returns :
    readPairs "# axes\r\n x_min : -1 \r\n\r\ny_max:" =
        .ok [("x_min", "-1"), ("y_max", "")] ∧
      readPairs "mode:deg:\n\t2y : 3 \nrest" = .error (.line "2y : 3") ∧
      readPairs ("# axes\r\n x_min : -1 \r\n\r\n" ++ "; none\n \t\n" ++
        "y_max:" ++ "\n" ++ "t:0") =
          .ok [("x_min", "-1"), ("y_max", ""), ("t", "0")] := by
  obtain ⟨hlines, hextra, hjoin⟩ := settings_read_line_by_line
  have haxes : ReturnsEndLines
      "# axes\r\n x_min : -1 \r\n\r\ny_max:".toList := by
    simp [returnsEndLines_cons_iff, returnsEndLines_nil]
  have hpairs : readPairs "# axes\r\n x_min : -1 \r\n\r\ny_max:" =
      .ok [("x_min", "-1"), ("y_max", "")] := by
    have hrelevant :
        relevantLines "# axes\r\n x_min : -1 \r\n\r\ny_max:".toList =
          [" x_min : -1 ".toList, "y_max:".toList] := by
      decide +kernel
    rw [(hlines _ haxes).2.1, hrelevant]
    exact .cons (readLine?_eq_some_iff.1 (by decide +kernel))
      (.cons (readLine?_eq_some_iff.1 (by decide +kernel)) .nil)
  refine ⟨hpairs, ?_, ?_⟩
  · have hfaulty : ReturnsEndLines "mode:deg:\n\t2y : 3 \nrest".toList := by
      simp [returnsEndLines_cons_iff, returnsEndLines_nil]
    rw [(hlines _ hfaulty).2.2]
    refine ⟨["mode:deg:".toList], "\t2y : 3 ".toList, ["rest".toList],
      by decide +kernel, ?_, ?_, by decide +kernel⟩
    · intro line hline
      rw [List.mem_singleton] at hline
      subst hline
      exact ⟨_, "deg:".toList, readLine?_eq_some_iff.1 rfl⟩
    · rintro ⟨key, value, hpair⟩
      rw [← readLine?_eq_some_iff] at hpair
      cases hpair
  · have hnone : ReturnsEndLines "; none\n \t\n".toList := by
      simp [returnsEndLines_cons_iff, returnsEndLines_nil]
    have hlast : ReturnsEndLines "t:0".toList := by
      simp [returnsEndLines_cons_iff, returnsEndLines_nil]
    have hpair : readPairs "t:0" = .ok [("t", "0")] := by
      decide +kernel
    have hwider : readPairs ("# axes\r\n x_min : -1 \r\n\r\n" ++
        "; none\n \t\n" ++ "y_max:") = .ok [("x_min", "-1"), ("y_max", "")] :=
      ((hextra _ hnone (by decide +kernel)).1
        "# axes\r\n x_min : -1 \r\n\r\n" "y_max:" (by simp [IsWhole])
        (by simp [IsWhole]) haxes).trans hpairs
    refine hjoin _ "t:0" ?_ hlast _ _ hwider hpair
    simp [returnsEndLines_cons_iff, returnsEndLines_nil]

end SciCalc
