import Mathlib.Data.List.TakeWhile
import PercentFormat.Proofs.Offsets
import PercentFormat.Proofs.Reading

/-!
# Operations on a cursor

Whatever is done to a cursor, and in whatever order, it stays where its template can be cut.  Of each
operation no more has to be known than that it moves the cursor over some text that lies ahead; such
moves can be put together, so what holds at the start of a template is carried along any sequence of
operations.

An operation may fail.  Attributes that the end of the template cuts short are not read, but the cursor
has been moved all the same, and nothing takes it back.  So an operation is told here by the cursor it
leaves, and its failure by what it answers.

## Main definitions

* `Cursor.parseAttributes`: reading attributes, as an operation that can fail
* `Cursor.Operation`, `Cursor.after`, `Cursor.afterAll`: operations, and the cursor they leave
* `Cursor.Within`: the invariant

## Main results

* `readDirective_eq_parseAttributes`: no matter where the failure is noticed, it is the same
* `reaches_afterAll`: operations move a cursor over some text
* `within_iff_reaches`: the invariant says that some text lies between the start and the cursor
* `takeLiteral_spec`: literal text goes up to the next `%` or to the end
-/

namespace PercentFormat

open Text (byteLength)

namespace Cursor

/-! ## Attributes that are cut short -/

/-- Reads all attributes of a directive, unless the template ends within them or right behind their
index, flags and width.  The cursor is then left at the end. -/
def parseAttributes (c : Cursor) : Except TemplateError Attributes × Cursor :=
  let (attributes, c) := c.readIndexFlagsWidth
  if c.isAtEnd then (.error (.unexpectedEnd c.position), c)
  else
    let (precision, c) := c.readPrecision
    (.ok { attributes with precision }, c)

theorem isAtEnd_iff_peek? (c : Cursor) : c.isAtEnd = true ↔ c.peek? = none := by
  rw [isAtEnd, peek?, List.isEmpty_iff, List.head?_eq_none_iff]

theorem readPrecision_of_isAtEnd {c : Cursor} (h : c.isAtEnd = true) :
    c.readPrecision = (none, c) := by
  rw [readPrecision, (isAtEnd_iff_peek? c).mp h]
  rfl

/-- Failed or not, reading attributes leaves the cursor where they end. -/
theorem parseAttributes_snd (c : Cursor) : c.parseAttributes.2 = c.readAttributes.2 := by
  rw [parseAttributes, readAttributes]
  dsimp only
  split
  next h => rw [readPrecision_of_isAtEnd h]
  next => rfl

theorem parseAttributes_of_not_isAtEnd {c : Cursor} (h : ¬ c.readAttributes.2.isAtEnd = true) :
    c.parseAttributes = (.ok c.readAttributes.1, c.readAttributes.2) := by
  rw [readAttributes] at h
  rw [parseAttributes, readAttributes]
  dsimp only at h ⊢
  split
  next hend =>
    rw [readPrecision_of_isAtEnd hend] at h
    exact absurd hend h
  next => rfl

/-- **No matter where the failure is noticed, it is the same.**  Attributes that are cut short leave
nothing where a conversion could stand. -/
theorem readDirective_eq_parseAttributes (c : Cursor) :
    c.readDirective =
      if c.peek? = some '%' then .ok (.literal '%', c.bump)
      else c.parseAttributes.1.bind c.parseAttributes.2.readConversion := by
  rw [readDirective, parseAttributes, readAttributes]
  dsimp only
  split
  · rfl
  · split
    next h =>
      rw [readPrecision_of_isAtEnd h, readConversion, (isAtEnd_iff_peek? _).mp h]
      rfl
    next => rfl

/-! ## Operations -/

/-- What can be done to a cursor. -/
inductive Operation where
  | peek
  | bump
  | takeLiteral
  | readNumber
  | parseAttributes
deriving DecidableEq, Repr

/-- The cursor an operation leaves, whether it succeeds or fails. -/
def after (c : Cursor) : Operation → Cursor
  | .peek => c
  | .bump => c.bump
  | .takeLiteral => c.takeLiteral.2
  | .readNumber => c.readNumber?.2
  | .parseAttributes => c.parseAttributes.2

/-- The cursor that operations leave, one done after the other. -/
def afterAll (c : Cursor) (operations : List Operation) : Cursor :=
  operations.foldl after c

theorem reaches_after (c : Cursor) (operation : Operation) : c.Reaches (c.after operation) := by
  cases operation with
  | peek => exact Reaches.refl c
  | bump => exact c.bump_reaches
  | takeLiteral => exact c.takeWhile_reaches _
  | readNumber => exact c.readNumber?_reaches
  | parseAttributes =>
    rw [after, parseAttributes_snd]
    exact c.readAttributes_reaches

/-- **Operations move a cursor over some text**, so that it never goes back. -/
theorem reaches_afterAll (c : Cursor) (operations : List Operation) :
    c.Reaches (c.afterAll operations) := by
  induction operations generalizing c with
  | nil => exact Reaches.refl c
  | cons operation operations ih => exact (c.reaches_after operation).trans (ih (c.after operation))

/-- Whatever a directive consists of, reading it is a matter of operations. -/
theorem exists_afterAll_readDirective {c c' : Cursor} {piece : Piece}
    (h : c.readDirective = .ok (piece, c')) : ∃ operations, c' = c.afterAll operations := by
  rw [readDirective_eq_parseAttributes] at h
  split at h
  · cases h
    exact ⟨[.bump], rfl⟩
  · cases ha : c.parseAttributes.1 with
    | error e =>
      rw [ha] at h
      cases h
    | ok a =>
      rw [ha] at h
      change c.parseAttributes.2.readConversion a = .ok (piece, c') at h
      unfold readConversion at h
      split at h
      · cases h
      · split at h
        · cases h
        · cases h
          exact ⟨[.parseAttributes, .peek, .bump], rfl⟩

/-! ## The invariant -/

variable {template : String} {c : Cursor}

/-- A cursor stands in a template where it can be cut, and what lies ahead of it is what is left
then. -/
structure Within (template : String) (c : Cursor) : Prop where
  position_le : c.position ≤ template.utf8ByteSize
  isValid : String.Pos.Raw.IsValid template ⟨c.position⟩
  sliceFrom? : Text.sliceFrom? template.toList c.position = some c.rest

theorem Reaches.utf8ByteSize_eq (h : (start template.toList).Reaches c) :
    template.utf8ByteSize = c.position + byteLength c.rest := by
  obtain ⟨taken, hm⟩ := h
  rw [hm.position, start, Nat.zero_add, ← Text.byteLength_toList, ← Text.byteLength_append]
  exact congrArg byteLength hm.rest

/-- **The invariant says that some text lies between the start and the cursor**, which is what
operations keep true. -/
theorem within_iff_reaches : Within template c ↔ (start template.toList).Reaches c := by
  constructor
  · intro h
    obtain ⟨taken, htemplate, hposition⟩ := Text.sliceFrom?_eq_some_iff.mp h.sliceFrom?
    exact ⟨taken, htemplate, by rw [← hposition, start, Nat.zero_add]⟩
  · intro h
    have hslice := sliceFrom?_position h
    refine ⟨?_, ?_, hslice⟩
    · rw [h.utf8ByteSize_eq]
      exact Nat.le_add_right _ _
    · exact Text.isSome_sliceFrom?_iff.mp (by rw [hslice, Option.isSome_some])

/-- **The invariant** holds after any operations. -/
theorem within_afterAll (template : String) (operations : List Operation) :
    Within template ((start template.toList).afterAll operations) :=
  within_iff_reaches.mpr (reaches_afterAll _ operations)

/-- Attributes that are cut short fail, behind a width as behind an index. -/
example : ["é%5", "é%12$+"].map (fun s => ((start s.toList).afterAll
    [.takeLiteral, .bump]).parseAttributes) =
      [(.error (.unexpectedEnd 4), ⟨4, []⟩), (.error (.unexpectedEnd 7), ⟨7, []⟩)] := by
  decide

theorem Within.reaches {c' : Cursor} (h : Within template c) (hreaches : c.Reaches c') :
    Within template c' :=
  within_iff_reaches.mpr ((within_iff_reaches.mp h).trans hreaches)

theorem Within.isAtEnd_iff (h : Within template c) :
    c.isAtEnd = true ↔ template.utf8ByteSize ≤ c.position := by
  rw [(within_iff_reaches.mp h).utf8ByteSize_eq, isAtEnd, List.isEmpty_iff]
  constructor
  · intro hrest
    rw [hrest]
    exact Nat.le_refl _
  · intro hle
    cases hrest : c.rest with
    | nil => rfl
    | cons d rest =>
      have hpos := d.utf8Size_pos
      rw [hrest, Text.byteLength_cons] at hle
      omega

/-! ## Literal text -/

/-- What taking literal text finds.  `text` is the template from the old position up to the new one. -/
structure LiteralSpec (template : String) (c : Cursor) (text : List Char) (c' : Cursor) : Prop where
  /-- Cut at the old position, the template goes on with the text. -/
  sliceFrom? : Text.sliceFrom? template.toList c.position = some (text ++ c'.rest)
  /-- Cut at the new one, it goes on with what is left behind the text. -/
  sliceFrom?_after : Text.sliceFrom? template.toList c'.position = some c'.rest
  position : c'.position = c.position + byteLength text
  percent : '%' ∉ text
  /-- The text goes up to the next `%` or to the end. -/
  stops : c'.peek? = some '%' ∨ c'.isAtEnd = true

theorem percent_notMem_takeLiteral (c : Cursor) : '%' ∉ c.takeLiteral.1 := by
  intro hmem
  have hne := List.mem_takeWhile_imp hmem
  simp at hne

theorem takeLiteral_stops (c : Cursor) :
    c.takeLiteral.2.peek? = some '%' ∨ c.takeLiteral.2.isAtEnd = true := by
  rw [isAtEnd_iff_peek?]
  cases hpeek : c.takeLiteral.2.peek? with
  | none => exact .inr rfl
  | some d =>
    have hd := takeWhile_stops (· != '%') c d hpeek
    left
    simpa using hd

/-- **Literal text goes up to the next `%` or to the end.** -/
theorem takeLiteral_spec (h : Within template c) :
    LiteralSpec template c c.takeLiteral.1 c.takeLiteral.2 := by
  have hmoves : c.Moves c.takeLiteral.1 c.takeLiteral.2 := c.takeWhile_moves _
  have hafter : Within template c.takeLiteral.2 := h.reaches ⟨_, hmoves⟩
  exact ⟨by rw [h.sliceFrom?, hmoves.rest], hafter.sliceFrom?, hmoves.position,
    c.percent_notMem_takeLiteral, c.takeLiteral_stops⟩

end Cursor

end PercentFormat
