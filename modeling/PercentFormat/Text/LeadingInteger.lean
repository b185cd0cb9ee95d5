import PercentFormat.Bounds
import PercentFormat.Text.Blank
import PercentFormat.Text.Digits

/-!
# The integer at the head of a text

Text given where an integer is asked for is read leniently: blanks, then a sign, then as many
digits as there are, and whatever follows is ignored.  A text without a digit in that place
holds no integer.
-/

namespace PercentFormat

namespace Text

/-- The signed 64-bit integer at the head of a text, saturating, or `none` if no digit stands
where it should begin. -/
def leadingInteger? (text : List Char) : Option Int :=
  let (negative, s) := takeSign (dropBlanks text)
  let ds := s.takeWhile Char.isDigit
  if ds.isEmpty then none
  else if negative then some (-(Digits.saturated signedMin.natAbs ds))
  else some (Digits.saturated signedMax.natAbs ds)

end Text

end PercentFormat
