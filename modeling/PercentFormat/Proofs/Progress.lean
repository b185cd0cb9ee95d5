import PercentFormat.Proofs.CursorOperations
import PercentFormat.Proofs.Printing

/-!
# Rounds of a scan

A template need not be read as a whole before it is filled.  One pass does both, in rounds: literal text
is copied up to the next `%`, the directive that begins there is read and filled at once, and the next
round goes on behind it.  Here it is shown that this comes to an end, and to the same end.

## Why it is not bookkeeping

Between two rounds the cursor has to move, and hardly anything that a round does has to move it: the
literal text may be empty, and of a directive the index, the flags, the width and the precision may all
be missing.  What moves it are the `%`, and the character behind the attributes, without which the
round would have failed.  So every round that is not the last has its own `%`, and that is also why
there are no more rounds than that.

## Main definitions

* `Scan`, `Scan.round`: the state of a pass, and one round of it
* `Scan.Ends`: a pass that comes to an end, counted in rounds
* `Scan.expected`: the text that is there once the rest is read and filled

## Main results

* `exists_moves_of_next`: a round takes literal text, its `%`, and at least one more character
* `expected_round`: a round leaves the expected text alone
* `exists_ends`, `Ends.rounds_le`: a pass comes to an end, in a round for each `%` and one more
* `cursor_progress`: the invariant of the cursor, and what it is good for
-/

namespace PercentFormat

open Text (byteLength)

/-! ## Passes -/

/-- The state of a pass through a template. -/
structure Scan where
  /-- Where the next round begins. -/
  cursor : Cursor
  /-- The number of the argument whose turn it is. -/
  turn : Nat
  /-- The text so far. -/
  text : List Char

/-- How a round ends. -/
inductive Round where
  /-- There was only literal text left. -/
  | ended (s : Scan)
  /-- The directive could not be read, or not be filled, or there was no room. -/
  | failed (e : FormatError)
  /-- The directive is filled, and the next round may begin. -/
  | next (s : Scan)

namespace Scan

/-- The text so far with more behind it, or the failure for want of capacity. -/
def push (text more : List Char) : Except FormatError (List Char) :=
  if byteLength (text ++ more) ≤ textCapacity then .ok (text ++ more) else .error .capacityOverflow

/-- The state at the start of a template. -/
def start (template : String) : Scan :=
  ⟨.start template.toList, 0, []⟩

section

variable (nilToken : String) (arguments : List Value)

/-- One round: the literal text up to the next `%`, and the directive behind it. -/
def round (s : Scan) : Round :=
  let (literal, c) := s.cursor.takeLiteral
  match push s.text literal with
  | .error e => .failed e
  | .ok text =>
    if c.isAtEnd then .ended ⟨c, s.turn, text⟩
    else
      match c.bump.readDirective with
      | .error e => .failed (.malformed e)
      | .ok (piece, c') =>
        match (piece.fill nilToken arguments s.turn).outcome >>= push text with
        | .error e => .failed e
        | .ok text' => .next ⟨c', piece.turnAfter s.turn, text'⟩

/-- The pass from `s` on has `n` rounds, and ends in a last state or in a failure. -/
inductive Ends : Nat → Scan → Except FormatError Scan → Prop where
  | ended {s s' : Scan} (last : s.round nilToken arguments = .ended s') : Ends 1 s (.ok s')
  | failed {s : Scan} {e : FormatError} (last : s.round nilToken arguments = .failed e) :
    Ends 1 s (.error e)
  | next {n : Nat} {s s' : Scan} {r : Except FormatError Scan}
    (first : s.round nilToken arguments = .next s') (others : Ends n s' r) : Ends (n + 1) s r

/-- The text that is there once the rest of the template is read and filled. -/
def expected (s : Scan) : Except FormatError (List Char) :=
  (s.text ++ ·) <$>
    ((Template.read s.cursor).fill nilToken arguments s.turn (byteLength s.text)).outcome

end

variable {nilToken : String} {arguments : List Value} {s s' : Scan}

/-! ## What a round takes -/

theorem push_eq (text more : List Char) :
    push text more =
      if byteLength text + byteLength more ≤ textCapacity then .ok (text ++ more)
      else .error .capacityOverflow := by
  rw [push, Text.byteLength_append]

theorem byteLength_le_of_push {text more text' : List Char} (h : push text more = .ok text') :
    byteLength text' ≤ textCapacity := by
  unfold push at h
  split at h
  next hroom =>
    cases h
    exact hroom
  next => cases h

theorem cursor_of_ended (h : s.round nilToken arguments = .ended s') :
    s'.cursor = s.cursor.takeLiteral.2 ∧ s'.cursor.isAtEnd = true := by
  unfold round at h
  dsimp only at h
  split at h
  · cases h
  · split at h
    next hend =>
      cases h
      exact ⟨rfl, hend⟩
    next =>
      split at h
      · cases h
      · split at h <;> cases h

/-- A round that is not the last reads a directive behind its literal text and a `%`, and leaves a text
that is no longer than a text can be. -/
theorem round_eq_next (h : s.round nilToken arguments = .next s') :
    s.cursor.takeLiteral.2.peek? = some '%' ∧
      (∃ piece, s.cursor.takeLiteral.2.bump.readDirective = .ok (piece, s'.cursor)) ∧
        byteLength s'.text ≤ textCapacity := by
  unfold round at h
  dsimp only at h
  split at h
  · cases h
  next text _ =>
    split at h
    · cases h
    next hend =>
      refine ⟨s.cursor.takeLiteral_stops.resolve_right hend, ?_⟩
      split at h
      · cases h
      next piece c' hread =>
        split at h
        · cases h
        next text' hshown =>
          cases h
          refine ⟨⟨piece, hread⟩, ?_⟩
          cases hfill : (piece.fill nilToken arguments s.turn).outcome with
          | error e =>
            rw [hfill] at hshown
            cases hshown
          | ok shown =>
            rw [hfill] at hshown
            exact byteLength_le_of_push hshown

/-- **A round that is not the last takes literal text, its `%`, and at least one more character.** -/
theorem exists_moves_of_next (h : s.round nilToken arguments = .next s') :
    ∃ (literal : List Char) (d : Char) (more : List Char), '%' ∉ literal ∧
      s.cursor.Moves (literal ++ '%' :: d :: more) s'.cursor := by
  obtain ⟨hpeek, ⟨piece, hread⟩, -⟩ := round_eq_next h
  obtain ⟨⟨taken, hdirective⟩, hlt⟩ := Cursor.readDirective_lt hread
  have hliteral : s.cursor.Moves s.cursor.takeLiteral.1 s.cursor.takeLiteral.2 :=
    s.cursor.takeWhile_moves _
  have hpercent := Cursor.bump_moves_of_peek? hpeek
  cases taken with
  | nil =>
    have hlength := hdirective.length
    simp only [List.length_nil] at hlength
    omega
  | cons d more =>
    exact ⟨s.cursor.takeLiteral.1, d, more, s.cursor.percent_notMem_takeLiteral,
      hliteral.trans (hpercent.trans hdirective)⟩

/-- A round moves the cursor by operations alone. -/
theorem exists_afterAll_of_next (h : s.round nilToken arguments = .next s') :
    ∃ operations, s'.cursor = s.cursor.afterAll operations := by
  obtain ⟨-, ⟨piece, hread⟩, -⟩ := round_eq_next h
  obtain ⟨operations, hc⟩ := Cursor.exists_afterAll_readDirective hread
  exact ⟨.takeLiteral :: .bump :: operations, hc⟩

end Scan

/-! ## What a round leaves alone -/

namespace Template

variable {nilToken : String} {arguments : List Value}

theorem outcome_fill_literal (turn : Nat) {length : Nat} (hroom : length ≤ textCapacity)
    (text : List Char) (t : Template) :
    ((t.prepend (text.map .literal)).fill nilToken arguments turn length).outcome =
      if length + byteLength text ≤ textCapacity then
        (text ++ ·) <$> (t.fill nilToken arguments turn (length + byteLength text)).outcome
      else .error .capacityOverflow := by
  rw [outcome_fill, outcome_fill, prepend, outcome_fillPieces_literal turn hroom]
  split
  · rcases (fillPieces nilToken arguments turn _ t.pieces).outcome with e | rest
    · rfl
    · cases t.error? <;> rfl
  · rfl

/-- A template with a piece in front is filled with the text of that piece in front, if there is room,
from the turn that the piece leaves. -/
theorem outcome_fill_cons (turn length : Nat) (p : Piece) (t : Template) :
    ((t.prepend [p]).fill nilToken arguments turn length).outcome =
      (p.fill nilToken arguments turn).outcome >>= fun shown =>
        if length + byteLength shown ≤ textCapacity then
          (shown ++ ·) <$> (t.fill nilToken arguments (p.turnAfter turn)
            (length + byteLength shown)).outcome
        else .error .capacityOverflow := by
  rw [outcome_fill, prepend, List.singleton_append, outcome_fillPieces_cons, bind_assoc]
  congr 1
  funext shown
  split
  · rw [outcome_fill]
    rcases (fillPieces nilToken arguments (p.turnAfter turn) _ t.pieces).outcome with e | rest
    · rfl
    · cases t.error? <;> rfl
  · rfl

end Template

namespace Scan

variable {nilToken : String} {arguments : List Value} {s s' : Scan}

/-- **A round leaves the expected text alone**: it is the same before the next round, and the last round
gives it or fails. -/
theorem expected_round (hroom : byteLength s.text ≤ textCapacity) :
    s.expected nilToken arguments =
      match s.round nilToken arguments with
      | .ended s' => .ok s'.text
      | .failed e => .error e
      | .next s' => s'.expected nilToken arguments := by
  rw [expected, Template.read_eq, Template.outcome_fill_literal s.turn hroom]
  unfold round
  dsimp only
  rw [push_eq]
  by_cases hliteral : byteLength s.text + byteLength s.cursor.takeLiteral.1 ≤ textCapacity
  · rw [if_pos hliteral, if_pos hliteral]
    dsimp only
    split
    · simp [Template.fill, Template.fillPieces]
    · cases s.cursor.takeLiteral.2.bump.readDirective with
      | error e => simp [Template.fill, Template.fillPieces]
      | ok read =>
        obtain ⟨piece, c'⟩ := read
        dsimp only
        rw [Template.outcome_fill_cons]
        cases (piece.fill nilToken arguments s.turn).outcome with
        | error e => rfl
        | ok shown =>
          dsimp only [bind, Except.bind]
          rw [push_eq, Text.byteLength_append]
          by_cases hshown : byteLength s.text + byteLength s.cursor.takeLiteral.1 + byteLength shown ≤
              textCapacity
          · rw [if_pos hshown, if_pos hshown]
            dsimp only
            rw [expected, Text.byteLength_append, Text.byteLength_append]
            rcases ((Template.read c').fill nilToken arguments (piece.turnAfter s.turn) _).outcome with
              e | rest
            · rfl
            · simp [Functor.map, Except.map]
          · rw [if_neg hshown, if_neg hshown]
            rfl
  · rw [if_neg hliteral, if_neg hliteral]
    rfl

/-! ## Passes come to an end -/

theorem length_lt_of_next (h : s.round nilToken arguments = .next s') :
    s'.cursor.rest.length < s.cursor.rest.length := by
  obtain ⟨literal, d, more, -, hmoves⟩ := exists_moves_of_next h
  rw [hmoves.length]
  simp only [List.length_append, List.length_cons]
  omega

/-- **A pass comes to an end**, wherever it stands. -/
theorem exists_ends (nilToken : String) (arguments : List Value) (s : Scan) :
    ∃ n r, Ends nilToken arguments n s r := by
  cases h : s.round nilToken arguments with
  | ended s' => exact ⟨1, .ok s', .ended h⟩
  | failed e => exact ⟨1, .error e, .failed h⟩
  | next s' =>
    have hlt := length_lt_of_next h
    obtain ⟨n, r, hr⟩ := exists_ends nilToken arguments s'
    exact ⟨n + 1, r, .next h hr⟩
termination_by s.cursor.rest.length

namespace Ends

variable {n : Nat} {r : Except FormatError Scan}

/-- There are no more rounds than `%` ahead, and one. -/
theorem rounds_le (h : Ends nilToken arguments n s r) : n ≤ s.cursor.rest.count '%' + 1 := by
  induction h with
  | ended => exact Nat.le_add_left _ _
  | failed => exact Nat.le_add_left _ _
  | next first others ih =>
    obtain ⟨literal, d, more, -, hmoves⟩ := exists_moves_of_next first
    rw [hmoves.rest]
    simp only [List.count_append, List.count_cons_self]
    omega

theorem cursor_of_ok {s' : Scan} (h : Ends nilToken arguments n s r) (hr : r = .ok s') :
    s.cursor.Reaches s'.cursor ∧ s'.cursor.isAtEnd = true := by
  induction h with
  | ended last =>
    cases hr
    obtain ⟨hcursor, hend⟩ := cursor_of_ended last
    exact ⟨hcursor ▸ Cursor.takeWhile_reaches _ _, hend⟩
  | failed => cases hr
  | next first others ih =>
    obtain ⟨literal, d, more, -, hmoves⟩ := exists_moves_of_next first
    obtain ⟨hreaches, hend⟩ := ih hr
    exact ⟨Cursor.Reaches.trans ⟨_, hmoves⟩ hreaches, hend⟩

/-- **It comes to the end that was to be expected**, if the text so far is one. -/
theorem expected_eq (h : Ends nilToken arguments n s r) (hroom : byteLength s.text ≤ textCapacity) :
    s.expected nilToken arguments = Scan.text <$> r := by
  induction h with
  | ended last =>
    rw [expected_round hroom, last]
    rfl
  | failed last =>
    rw [expected_round hroom, last]
    rfl
  | next first others ih =>
    rw [expected_round hroom, first]
    exact ih (round_eq_next first).2.2

end Ends

/-- At the start, what is expected is what the template is formatted to. -/
theorem expected_start (f : Formatter) (template : String) (arguments : List Value) :
    f.format template arguments =
      String.ofList <$> (start template).expected f.nilToken arguments := by
  have hexpected : (start template).expected f.nilToken arguments =
      ((Template.parse template.toList).fill f.nilToken arguments 0 0).outcome := id_map _
  rw [hexpected, f.format_eq]

/-- A pass through a template, from its start on: how many rounds it has, what comes of it, and where
it leaves the cursor. -/
theorem Ends.of_start {f : Formatter} {template : String} {arguments : List Value} {n : Nat}
    {r : Except FormatError Scan} (h : Ends f.nilToken arguments n (start template) r) :
    n ≤ template.toList.count '%' + 1 ∧
      f.format template arguments = (fun s => String.ofList s.text) <$> r ∧
        ∀ s, r = .ok s → s.cursor = ⟨template.utf8ByteSize, []⟩ := by
  refine ⟨h.rounds_le, ?_, ?_⟩
  · rw [expected_start, h.expected_eq (Nat.zero_le _)]
    cases r <;> rfl
  · intro s hr
    obtain ⟨hreaches, hend⟩ := h.cursor_of_ok hr
    have hrest : s.cursor.rest = [] := List.isEmpty_iff.mp hend
    have hsize := Cursor.Reaches.utf8ByteSize_eq hreaches
    rw [hrest, Text.byteLength_nil, Nat.add_zero] at hsize
    rw [hsize, ← hrest]

/-- **Cursors keep their invariant, and make progress.**

* After any operations, failed or not, a cursor stands where its template can be cut, and further
  operations do not move it back.
* Literal text is what lies between the old position and the new one; it holds no `%`, and there is a
  `%` behind it or nothing.
* There is no next character exactly at the end, which is where all bytes are behind.
* A round that is not the last moves the cursor by operations alone, and over a `%` and one more
  character at least.
* From the start of every template, a pass comes to an end, in no more rounds than the template has
  `%`, and one.  It gives what formatting gives, and if that is a text, all of the template has been
  taken. -/
theorem cursor_progress :
    (∀ (template : String) (operations : List Cursor.Operation) (c : Cursor),
      c = (Cursor.start template.toList).afterAll operations →
        Cursor.Within template c ∧ (∀ more, c.position ≤ (c.afterAll more).position) ∧
          Cursor.LiteralSpec template c c.takeLiteral.1 c.takeLiteral.2 ∧
            (c.isAtEnd = true ↔ c.peek? = none) ∧
              (c.isAtEnd = true ↔ template.utf8ByteSize ≤ c.position)) ∧
    (∀ (nilToken : String) (arguments : List Value) (s s' : Scan),
      s.round nilToken arguments = .next s' →
        (∃ operations, s'.cursor = s.cursor.afterAll operations) ∧
          ∃ (literal : List Char) (d : Char) (more : List Char), '%' ∉ literal ∧
            s.cursor.Moves (literal ++ '%' :: d :: more) s'.cursor) ∧
    (∀ (f : Formatter) (template : String) (arguments : List Value),
      (∃ n r, Ends f.nilToken arguments n (start template) r) ∧
        ∀ n r, Ends f.nilToken arguments n (start template) r →
          n ≤ template.toList.count '%' + 1 ∧
            f.format template arguments = (fun s => String.ofList s.text) <$> r ∧
              ∀ s, r = .ok s → s.cursor = ⟨template.utf8ByteSize, []⟩) := by
  refine ⟨?_, ?_, ?_⟩
  · rintro template operations c rfl
    have hwithin := Cursor.within_afterAll template operations
    exact ⟨hwithin, fun more => (Cursor.reaches_afterAll _ more).position_le,
      Cursor.takeLiteral_spec hwithin, Cursor.isAtEnd_iff_peek? _, hwithin.isAtEnd_iff⟩
  · intro nilToken arguments s s' h
    exact ⟨exists_afterAll_of_next h, exists_moves_of_next h⟩
  · intro f template arguments
    exact ⟨exists_ends f.nilToken arguments (start template), fun n r h => h.of_start⟩

end Scan

end PercentFormat
