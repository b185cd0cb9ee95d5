import PercentFormat.Directive.Basic
import PercentFormat.Text.ByteLength
import PercentFormat.Text.Digits

/-!
# Cursors

A cursor is a place in a template: how many bytes lie before it, and the text that lies ahead.
Every operation moves it over whole characters and never back, and leaves it in front of the
first character that was not taken.

Directives are read without failing.  A template that ends too early leaves the cursor at its
end, where the conversion is missed; that is where the one check for it is made.

## Main definitions

* `Cursor`: a place in a template
* `Cursor.takeWhile`: takes the characters ahead that satisfy a condition
* `Cursor.takeLiteral`, `Cursor.readNumber?`, `Cursor.readFlags`, `Cursor.readAttributes`
* `Cursor.Moves c taken c'`: `c'` is `c` moved over the text `taken`

## Main results

* `takeWhile_moves`: what is taken is what the cursor has moved over
* `readAttributes_reaches`: reading attributes moves the cursor over some text, perhaps none
-/

namespace PercentFormat

/-- A place in a template. -/
structure Cursor where
  /-- How many bytes of the template lie before the cursor. -/
  position : Nat
  /-- The text ahead. -/
  rest : List Char
deriving DecidableEq, Repr

namespace Cursor

/-- The start of a template. -/
def start (template : List Char) : Cursor :=
  ⟨0, template⟩

/-- Whether nothing lies ahead. -/
def isAtEnd (c : Cursor) : Bool :=
  c.rest.isEmpty

/-- The next character. -/
def peek? (c : Cursor) : Option Char :=
  c.rest.head?

/-- Moves over one character, if there is one. -/
def bump (c : Cursor) : Cursor :=
  match c.rest with
  | [] => c
  | d :: rest => ⟨c.position + d.utf8Size, rest⟩

/-- Takes the longest run of characters ahead that all satisfy `p`. -/
def takeWhile (p : Char → Bool) (c : Cursor) : List Char × Cursor :=
  let taken := c.rest.takeWhile p
  (taken, ⟨c.position + Text.byteLength taken, c.rest.dropWhile p⟩)

/-- Takes the text up to the next `%` or the end. -/
def takeLiteral (c : Cursor) : List Char × Cursor :=
  c.takeWhile (· != '%')

/-! ## Parts of a directive -/

/-- A digit that a number may begin with.  A leading `0` is a flag and no part of a number. -/
def isLeadingDigit (c : Char) : Bool :=
  c.isDigit && c != '0'

theorem isLeadingDigit_iff {d : Char} : isLeadingDigit d = true ↔ '1' ≤ d ∧ d ≤ '9' := by
  have hzero : d = '0' ↔ d.toNat = 48 := Char.toNat_inj.symm
  have hlow : '0' ≤ d ↔ 48 ≤ d.toNat := Iff.rfl
  have hone : '1' ≤ d ↔ 49 ≤ d.toNat := Iff.rfl
  have hnine : d ≤ '9' ↔ d.toNat ≤ 57 := Iff.rfl
  rw [isLeadingDigit, Bool.and_eq_true, bne_iff_ne, Digits.isDigit_iff, ne_eq, hzero, hlow, hone,
    hnine]
  omega

/-- Reads a number, if one begins here, with all its digits.  It saturates at `wordMax`. -/
def readNumber? (c : Cursor) : Option Nat × Cursor :=
  match c.peek? with
  | some d =>
    if isLeadingDigit d then
      let (digits, c) := c.takeWhile Char.isDigit
      (some (Digits.saturated wordMax digits), c)
    else (none, c)
  | none => (none, c)

/-- Reads all flags ahead. -/
def readFlags (c : Cursor) : Flags × Cursor :=
  let (taken, c) := c.takeWhile fun d => (Flag.ofChar? d).isSome
  (.ofList (taken.filterMap Flag.ofChar?), c)

/-- Reads flags and a width. -/
def readFlagsWidth (c : Cursor) : Attributes × Cursor :=
  let (flags, c) := c.readFlags
  let (width, c) := c.readNumber?
  ({ flags, width := width.getD 0 }, c)

/-- Reads an index, flags and a width.  A number right at the start is an index if `$` follows
it.  If not, it is the width, and no flags are read behind it. -/
def readIndexFlagsWidth (c : Cursor) : Attributes × Cursor :=
  match c.readNumber? with
  | (none, c) => c.readFlagsWidth
  | (some n, c) =>
    if c.peek? = some '$' then
      let (attributes, c) := c.bump.readFlagsWidth
      ({ attributes with index := some (n - 1) }, c)
    else ({ width := n }, c)

/-- Reads a precision: a point, and a number or else zero. -/
def readPrecision (c : Cursor) : Option Nat × Cursor :=
  if c.peek? = some '.' then
    let (precision, c) := c.bump.readNumber?
    (some (precision.getD 0), c)
  else (none, c)

/-- Reads all attributes of a directive. -/
def readAttributes (c : Cursor) : Attributes × Cursor :=
  let (attributes, c) := c.readIndexFlagsWidth
  let (precision, c) := c.readPrecision
  ({ attributes with precision }, c)

/-! ## Runs of characters -/

theorem takeWhile_cons_of_false {p : Char → Bool} {d : Char} (h : p d = false) (k : Nat)
    (rest : List Char) : takeWhile p ⟨k, d :: rest⟩ = ([], ⟨k, d :: rest⟩) := by
  simp [takeWhile, h]

theorem takeWhile_cons_of_true {p : Char → Bool} {d : Char} (h : p d = true) (k : Nat)
    (rest : List Char) :
    takeWhile p ⟨k, d :: rest⟩ =
      (d :: (takeWhile p ⟨k + d.utf8Size, rest⟩).1, (takeWhile p ⟨k + d.utf8Size, rest⟩).2) := by
  simp [takeWhile, h, Nat.add_assoc]

theorem takeLiteral_cons {c : Char} (h : c ≠ '%') (k : Nat) (rest : List Char) :
    takeLiteral ⟨k, c :: rest⟩ =
      (c :: (takeLiteral ⟨k + c.utf8Size, rest⟩).1, (takeLiteral ⟨k + c.utf8Size, rest⟩).2) :=
  takeWhile_cons_of_true (by simpa using h) k rest

theorem takeLiteral_percent (k : Nat) (rest : List Char) :
    takeLiteral ⟨k, '%' :: rest⟩ = ([], ⟨k, '%' :: rest⟩) :=
  takeWhile_cons_of_false rfl k rest

/-! ## Motion

What an operation takes, it takes from the front of the text ahead, and the position grows by
its length in bytes.  Every position is therefore a place between two characters of the
template. -/

/-- `c'` is `c` moved over the text `taken`. -/
structure Moves (c : Cursor) (taken : List Char) (c' : Cursor) : Prop where
  /-- The text taken lay ahead, in front of what lies ahead now. -/
  rest : c.rest = taken ++ c'.rest
  /-- The position has grown by the bytes of the text taken. -/
  position : c'.position = c.position + Text.byteLength taken

theorem Moves.refl (c : Cursor) : c.Moves [] c :=
  ⟨rfl, rfl⟩

theorem Moves.eq_of_nil {c c' : Cursor} (h : c.Moves [] c') : c' = c := by
  obtain ⟨k, rest⟩ := c
  obtain ⟨k', rest'⟩ := c'
  obtain ⟨hrest, hposition⟩ := h
  cases hrest
  cases hposition
  rfl

theorem Moves.trans {c d e : Cursor} {s t : List Char} (hcd : c.Moves s d) (hde : d.Moves t e) :
    c.Moves (s ++ t) e :=
  ⟨by rw [hcd.rest, hde.rest, List.append_assoc],
    by rw [hde.position, hcd.position, Text.byteLength_append, Nat.add_assoc]⟩

/-- Some text lies between `c` and `c'`, perhaps none. -/
def Reaches (c c' : Cursor) : Prop :=
  ∃ taken, c.Moves taken c'

theorem Reaches.refl (c : Cursor) : c.Reaches c :=
  ⟨[], Moves.refl c⟩

theorem Reaches.trans {c d e : Cursor} : c.Reaches d → d.Reaches e → c.Reaches e :=
  fun ⟨s, hs⟩ ⟨t, ht⟩ => ⟨s ++ t, hs.trans ht⟩

theorem Moves.length {c c' : Cursor} {taken : List Char} (h : c.Moves taken c') :
    c.rest.length = taken.length + c'.rest.length := by
  rw [h.rest, List.length_append]

theorem Reaches.length_le {c c' : Cursor} : c.Reaches c' → c'.rest.length ≤ c.rest.length :=
  fun ⟨_, h⟩ => by rw [h.length]; omega

theorem Reaches.position_le {c c' : Cursor} : c.Reaches c' → c.position ≤ c'.position :=
  fun ⟨_, h⟩ => by rw [h.position]; omega

theorem bump_moves (position : Nat) (d : Char) (rest : List Char) :
    Moves ⟨position, d :: rest⟩ [d] (bump ⟨position, d :: rest⟩) :=
  ⟨rfl, by simp [bump]⟩

theorem bump_reaches (c : Cursor) : c.Reaches c.bump := by
  obtain ⟨position, _ | ⟨d, rest⟩⟩ := c
  · exact Reaches.refl _
  · exact ⟨[d], bump_moves position d rest⟩

/-- What is taken is what the cursor has moved over. -/
theorem takeWhile_moves (p : Char → Bool) (c : Cursor) :
    c.Moves (c.takeWhile p).1 (c.takeWhile p).2 :=
  ⟨List.takeWhile_append_dropWhile.symm, rfl⟩

theorem takeWhile_reaches (p : Char → Bool) (c : Cursor) : c.Reaches (c.takeWhile p).2 :=
  ⟨_, c.takeWhile_moves p⟩

theorem readNumber?_reaches (c : Cursor) : c.Reaches c.readNumber?.2 := by
  unfold readNumber?
  split
  · split
    · exact c.takeWhile_reaches _
    · exact Reaches.refl c
  · exact Reaches.refl c

theorem readFlags_reaches (c : Cursor) : c.Reaches c.readFlags.2 :=
  c.takeWhile_reaches _

theorem readFlagsWidth_reaches (c : Cursor) : c.Reaches c.readFlagsWidth.2 :=
  c.readFlags_reaches.trans c.readFlags.2.readNumber?_reaches

theorem readIndexFlagsWidth_reaches (c : Cursor) : c.Reaches c.readIndexFlagsWidth.2 := by
  have hn := c.readNumber?_reaches
  unfold readIndexFlagsWidth
  split
  next c' h =>
    rw [h] at hn
    exact hn.trans c'.readFlagsWidth_reaches
  next n c' h =>
    rw [h] at hn
    split
    · exact hn.trans (c'.bump_reaches.trans c'.bump.readFlagsWidth_reaches)
    · exact hn

theorem readPrecision_reaches (c : Cursor) : c.Reaches c.readPrecision.2 := by
  unfold readPrecision
  split
  · exact c.bump_reaches.trans c.bump.readNumber?_reaches
  · exact Reaches.refl c

/-- Reading attributes moves the cursor over some text, perhaps none. -/
theorem readAttributes_reaches (c : Cursor) : c.Reaches c.readAttributes.2 :=
  c.readIndexFlagsWidth_reaches.trans c.readIndexFlagsWidth.2.readPrecision_reaches

end Cursor

end PercentFormat
