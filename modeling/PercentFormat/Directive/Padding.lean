import PercentFormat.Directive.Basic
import PercentFormat.Run
import PercentFormat.Text.ByteLength

/-!
# Padding

The width of a directive is a least width: a text that has it already is left alone, and a
shorter one is padded.  Width counts characters and capacity counts bytes; every character of
padding is one byte.  A padded text that would exceed the capacity is the only way in which an
argument that is there cannot be rendered.

## Main definitions

* `Attributes.pad`: a text padded to the width, or the failure for want of capacity

## Main results

* `pad_of_le`: a text of the width is left alone
* `pad_leftJustify`, `pad_fill`: the two ways to pad
-/

namespace PercentFormat

namespace Attributes

/-- A text padded to the width: with spaces on the right if it is left-justified, with the fill
character on the left otherwise. -/
def pad (a : Attributes) (core : List Char) : Run (List Char) :=
  let missing := a.width - core.length
  if missing = 0 then pure core
  else if textCapacity < Text.byteLength core + missing then Run.fail .capacityOverflow
  else if a.flags.leftJustify then pure (core ++ List.replicate missing ' ')
  else pure (List.replicate missing a.fill ++ core)

/-- A text that has the width is left alone, whatever its length in bytes. -/
theorem pad_of_le {a : Attributes} {core : List Char} (h : a.width ≤ core.length) :
    a.pad core = pure core :=
  if_pos (Nat.sub_eq_zero_of_le h)

/-- A left-justified text is padded on the right, with spaces whatever the other flags say. -/
theorem pad_leftJustify {a : Attributes} {core : List Char} (hl : a.flags.leftJustify = true)
    (hw : core.length < a.width)
    (hc : Text.byteLength core + (a.width - core.length) ≤ textCapacity) :
    a.pad core = pure (core ++ List.replicate (a.width - core.length) ' ') := by
  rw [pad, if_neg (by omega), if_neg (by omega), if_pos hl]

/-- Any other text is padded on the left, with the fill character. -/
theorem pad_fill {a : Attributes} {core : List Char} (hl : a.flags.leftJustify = false)
    (hw : core.length < a.width)
    (hc : Text.byteLength core + (a.width - core.length) ≤ textCapacity) :
    a.pad core = pure (List.replicate (a.width - core.length) a.fill ++ core) := by
  rw [pad, if_neg (by omega), if_neg (by omega), if_neg (by simp [hl])]

theorem pad_overflow {a : Attributes} {core : List Char} (hw : core.length < a.width)
    (hc : textCapacity < Text.byteLength core + (a.width - core.length)) :
    a.pad core = Run.fail .capacityOverflow := by
  rw [pad, if_neg (by omega), if_pos hc]

end Attributes

end PercentFormat
