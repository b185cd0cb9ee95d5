import PercentFormat.Directive.Rendering
import PercentFormat.Template.Basic

/-!
# Filling a template

A template is filled from a list of arguments, piece by piece.  Directives without an index take
the arguments in turn; an index reaches any argument and does not disturb the turn.  All pieces go
into one output, which can have no more bytes than a text can have.  The first fault ends it, and
then there is no text: a directive that cannot be filled comes before a malformed directive behind
it.

## Main definitions

* `Piece.fill`, `Piece.turnAfter`: the text of a piece, and whose turn it is after it
* `Template.reserve`: room for a text behind the output, or the failure for want of it
* `Template.fill`: the text of a template

## Main results

* `fillPieces_append`: pieces in two rows are filled one row after the other
-/

namespace PercentFormat

/-- The argument at an index, or the failure for want of it. -/
def selectArgument (arguments : List Value) (index : Nat) : Run Value :=
  match arguments[index]? with
  | some v => pure v
  | none => Run.fail (.argumentOutOfRange index arguments.length)

namespace Piece

/-- The turn after a piece: only a directive without an index takes its argument in turn. -/
def turnAfter (turn : Nat) : Piece → Nat
  | literal _ => turn
  | directive a _ => if a.index.isSome then turn else turn + 1

/-- The text of a piece, where `turn` is the number of the argument whose turn it is. -/
def fill (nilToken : String) (arguments : List Value) (turn : Nat) : Piece → Run (List Char)
  | literal c => pure [c]
  | directive a conversion => do
    let v ← selectArgument arguments (a.index.getD turn)
    conversion.render a nilToken v

end Piece

namespace Template

/-- The length of an output of `length` bytes with `text` behind it, or the failure for want of
capacity. -/
def reserve (length : Nat) (text : List Char) : Run Nat :=
  if textCapacity < length + Text.byteLength text then Run.fail .capacityOverflow
  else pure (length + Text.byteLength text)

theorem reserve_of_le {length : Nat} {text : List Char}
    (h : length + Text.byteLength text ≤ textCapacity) :
    reserve length text = pure (length + Text.byteLength text) :=
  if_neg (Nat.not_lt.mpr h)

theorem reserve_overflow {length : Nat} {text : List Char}
    (h : textCapacity < length + Text.byteLength text) :
    reserve length text = Run.fail .capacityOverflow :=
  if_pos h

/-- Where there is room, the length grows by that of the text and stays within the capacity. -/
theorem reserve_eq_ok {length : Nat} {text : List Char} {n : Nat}
    (h : (reserve length text).outcome = .ok n) :
    n = length + Text.byteLength text ∧ n ≤ textCapacity := by
  by_cases hfull : textCapacity < length + Text.byteLength text
  · rw [reserve_overflow hfull] at h
    cases h
  · rw [reserve_of_le (Nat.le_of_not_lt hfull)] at h
    cases h
    exact ⟨rfl, Nat.le_of_not_lt hfull⟩

/-- The text of pieces in a row behind an output of `length` bytes, where `turn` is the number of
the argument whose turn it is. -/
def fillPieces (nilToken : String) (arguments : List Value) :
    Nat → Nat → List Piece → Run (List Char)
  | _, _, [] => pure []
  | turn, length, piece :: pieces => do
    let text ← piece.fill nilToken arguments turn
    let length ← reserve length text
    let rest ← fillPieces nilToken arguments (piece.turnAfter turn) length pieces
    return text ++ rest

/-- Pieces in two rows are filled one row after the other, and all that the second row takes
over from the first is whose turn it is, and how long the output has become. -/
theorem fillPieces_append (nilToken : String) (arguments : List Value) (turn length : Nat)
    (ps qs : List Piece) :
    fillPieces nilToken arguments turn length (ps ++ qs) = (do
      let text ← fillPieces nilToken arguments turn length ps
      let rest ← fillPieces nilToken arguments (ps.foldl Piece.turnAfter turn)
        (length + Text.byteLength text) qs
      return text ++ rest) := by
  induction ps generalizing turn length with
  | nil => simp [fillPieces]
  | cons p ps ih =>
    simp only [List.cons_append, fillPieces, ih, List.foldl_cons, bind_assoc, pure_bind]
    refine Run.bind_congr fun text _ => Run.bind_congr fun n hn => Run.bind_congr fun rest _ => ?_
    rw [(reserve_eq_ok hn).1, Text.byteLength_append, Nat.add_assoc]
    simp only [List.append_assoc]

/-- The text of a template behind an output of `length` bytes, where `turn` is the number of the
argument whose turn it is at the start.  The fault of a malformed template comes to light once its
pieces are filled. -/
def fill (nilToken : String) (arguments : List Value) (turn length : Nat) (t : Template) :
    Run (List Char) := do
  let text ← fillPieces nilToken arguments turn length t.pieces
  match t.error? with
  | none => return text
  | some e => Run.fail (.malformed e)

end Template

end PercentFormat
