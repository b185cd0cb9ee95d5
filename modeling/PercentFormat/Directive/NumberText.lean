import PercentFormat.Binary.Shortest
import PercentFormat.Directive.Basic

/-!
# Numbers under a directive

A negative number is written with a minus sign; any other number begins with what the flags ask
for.  Neither zero nor NaN is negative, whatever its sign bit says.

## Main definitions

* `Attributes.integerText`: an integer with its sign; precision has no say in it
* `Attributes.floatText`: a float with its sign, to the precision asked for
* `Attributes.fractionText`: the digits behind the point
-/

namespace PercentFormat

namespace Attributes

/-- An integer with its sign. -/
def integerText (a : Attributes) (i : Int) : List Char :=
  if i < 0 then Digits.ofInt i else a.numberSign ++ Digits.ofInt i

/-- The greatest number of decimal places that a fraction is scaled by, `2 ^ 31 - 1`. -/
def placesMax : Nat := 2147483647

/-- The digits shown behind the point for a fraction: the fraction times ten to the number of
places, in floating-point arithmetic, and cut to its whole part.  Nothing is rounded to the
places, and zeros right behind the point are lost. -/
def fractionText (fraction : Binary64) (places : Nat) : List Char :=
  if fraction.isZero then ['0']
  else (fraction.mul ((Floating.ofInt 10).power (min places placesMax))).wholeText

/-- A float with its sign.  Without a precision a number shows as few digits as it needs, and a
whole number no fraction; with precision zero only the whole part shows.  What is not finite has no
precision.  Digits are those of the magnitude and need their sign; the text of a number as it
stands has the `-` of a negative one already. -/
def floatText (a : Attributes) (x : Binary64) : List Char :=
  let sign := if x.isNegative then ['-'] else a.numberSign
  let asItStands := if x.isNegative then x.text else sign ++ x.text
  let whole := sign ++ x.whole.abs.text
  if x.isFinite then
    match a.precision with
    | none => if x.fraction.abs.isZero then whole else asItStands
    | some 0 => whole
    | some places => whole ++ '.' :: fractionText x.fraction.abs places
  else asItStands

end Attributes

end PercentFormat
