import PercentFormat.Failure
import PercentFormat.Template.Cursor

/-!
# Templates

A template is a text in which `%` begins a directive.  Read as a template, a text is a list of
pieces, each a character to copy or a directive to fill in; `%%` is the character `%`.  If the
text is malformed, the pieces before the first fault are still there, and the fault stands
behind them: a directive before it may fail first.

## Main definitions

* `Piece`: a literal character or a directive
* `Cursor.readDirective`: the piece behind a `%`
* `Template`, `Template.parse`: the pieces of a text, and its first fault

## Main results

* `readDirective_lt`: a directive takes at least one character behind its `%`
-/

namespace PercentFormat

/-- A piece of a template. -/
inductive Piece where
  /-- A character to copy. -/
  | literal (c : Char)
  /-- A directive to fill in. -/
  | directive (attributes : Attributes) (conversion : Conversion)
deriving DecidableEq, Repr

namespace Cursor

/-- Reads the conversion of a directive with the given attributes. -/
def readConversion (attributes : Attributes) (c : Cursor) :
    Except TemplateError (Piece × Cursor) :=
  match c.peek? with
  | none => .error (.unexpectedEnd c.position)
  | some k =>
    match Conversion.ofChar? k with
    | none => .error (.unknownConversion k c.position)
    | some conversion => .ok (.directive attributes conversion, c.bump)

/-- Reads what stands behind a `%`: a second `%`, or attributes and a conversion. -/
def readDirective (c : Cursor) : Except TemplateError (Piece × Cursor) :=
  if c.peek? = some '%' then .ok (.literal '%', c.bump)
  else
    let (attributes, c) := c.readAttributes
    c.readConversion attributes

theorem length_bump_lt {c : Cursor} {d : Char} (h : c.peek? = some d) :
    c.bump.rest.length < c.rest.length := by
  obtain ⟨position, _ | ⟨e, rest⟩⟩ := c
  · simp [peek?] at h
  · simp [bump]

theorem readConversion_lt {a : Attributes} {c c' : Cursor} {piece : Piece}
    (h : c.readConversion a = .ok (piece, c')) :
    c.Reaches c' ∧ c'.rest.length < c.rest.length := by
  unfold readConversion at h
  split at h
  · simp at h
  next k hk =>
    split at h
    · simp at h
    · simp only [Except.ok.injEq, Prod.mk.injEq] at h
      obtain ⟨-, rfl⟩ := h
      exact ⟨c.bump_reaches, length_bump_lt hk⟩

/-- A directive takes at least one character behind its `%`. -/
theorem readDirective_lt {c c' : Cursor} {piece : Piece}
    (h : c.readDirective = .ok (piece, c')) :
    c.Reaches c' ∧ c'.rest.length < c.rest.length := by
  unfold readDirective at h
  split at h
  next hp =>
    simp only [Except.ok.injEq, Prod.mk.injEq] at h
    obtain ⟨-, rfl⟩ := h
    exact ⟨c.bump_reaches, length_bump_lt hp⟩
  next =>
    have ha := c.readAttributes_reaches
    have hk := readConversion_lt h
    exact ⟨ha.trans hk.1, Nat.lt_of_lt_of_le hk.2 ha.length_le⟩

end Cursor

/-! ## The pieces of a text -/

/-- A text read as a template. -/
structure Template where
  /-- The pieces, up to the first fault. -/
  pieces : List Piece
  /-- The first fault, if the text is malformed. -/
  error? : Option TemplateError
deriving DecidableEq, Repr

namespace Template

/-- The template with more pieces in front. -/
def prepend (pieces : List Piece) (t : Template) : Template :=
  { t with pieces := pieces ++ t.pieces }

@[simp] theorem prepend_prepend (ps qs : List Piece) (t : Template) :
    (t.prepend qs).prepend ps = t.prepend (ps ++ qs) := by
  simp [prepend]

/-- Reads all that lies ahead of a cursor: literal text up to a `%`, the directive that begins
there, and so on to the end or to the first fault. -/
def read (c : Cursor) : Template :=
  prepend (c.takeLiteral.1.map .literal) <|
    if c.takeLiteral.2.isAtEnd then ⟨[], none⟩
    else
      match _h : c.takeLiteral.2.bump.readDirective with
      | .error e => ⟨[], some e⟩
      | .ok (piece, c') => (read c').prepend [piece]
termination_by c.rest.length
decreasing_by
  exact Nat.lt_of_lt_of_le (Cursor.readDirective_lt _h).2
    ((c.takeWhile_reaches _).trans (Cursor.bump_reaches _)).length_le

/-- Reads a text as a template. -/
def parse (text : List Char) : Template :=
  read (.start text)

/-! ## Reading character by character

`read` goes from one `%` to the next; the equations below take one character at a time, which is
how a text is taken apart in proofs. -/

/-- The reading of a text ahead, without the proof that a directive moves the cursor. -/
theorem read_eq (c : Cursor) :
    read c = prepend (c.takeLiteral.1.map .literal)
      (if c.takeLiteral.2.isAtEnd then ⟨[], none⟩
      else
        match c.takeLiteral.2.bump.readDirective with
        | .error e => ⟨[], some e⟩
        | .ok (piece, c') => (read c').prepend [piece]) := by
  rw [read]
  congr 2
  split <;> rename_i h <;> simp only [h]

theorem read_nil (k : Nat) : read ⟨k, []⟩ = ⟨[], none⟩ := by
  rw [read_eq]
  rfl

theorem read_literal {c : Char} (h : c ≠ '%') (k : Nat) (rest : List Char) :
    read ⟨k, c :: rest⟩ = (read ⟨k + c.utf8Size, rest⟩).prepend [.literal c] := by
  rw [read_eq, read_eq, Cursor.takeLiteral_cons h, prepend_prepend]
  rfl

theorem read_percent (k : Nat) (rest : List Char) :
    read ⟨k, '%' :: rest⟩ =
      match Cursor.readDirective ⟨k + 1, rest⟩ with
      | .error e => ⟨[], some e⟩
      | .ok (piece, c) => (read c).prepend [piece] := by
  rw [read_eq, Cursor.takeLiteral_percent]
  rfl

end Template

end PercentFormat
