import PercentFormat.Run
import PercentFormat.Text.LeadingFloat
import PercentFormat.Text.LeadingInteger
import PercentFormat.Value.Basic

/-!
# Values as numbers

A directive that wants a number takes any value.  Numbers convert, floats to integers by
truncation and integers to floats by rounding; text is read from its head; an absent value is
zero.  Only a text that holds no number is reported, and it counts as zero too.
-/

namespace PercentFormat

namespace Value

/-- The value as an integer. -/
def toInteger : Value → Run Int
  | absent => pure 0
  | int i => pure i.toInt
  | uint u => pure u.toNat
  | float x => pure x.toSigned
  | text s | other s =>
    match Text.leadingInteger? s.toList with
    | some i => pure i
    | none => do
      Run.report (.notAnInteger s)
      return 0

/-- The value as a floating-point number. -/
def toFloat : Value → Run Binary64
  | absent => pure .zero
  | int i => pure (.ofInt i.toInt)
  | uint u => pure (.ofInt u.toNat)
  | float x => pure x
  | text s | other s =>
    match Text.leadingFloat? s.toList with
    | some x => pure x
    | none => do
      Run.report (.notANumber s)
      return .zero

end Value

end PercentFormat
