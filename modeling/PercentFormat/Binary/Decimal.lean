import PercentFormat.Binary.Number

/-!
# The number nearest to a decimal

A decimal `m · 10 ^ e` is an exact quotient, so reading it is one rounding.  Exponents come from
text and may be astronomically large or small; the two bounds below decide those cases without
raising ten to them.  They are safe because `8 < 10`: from `limit ≤ 3 e` on, `10 ^ e` units are
out of range already, and from `log2 m + scale + 2 ≤ 3 d` on, `m · 10 ^ (-d)` is less than half
a unit.
-/

namespace PercentFormat

namespace Floating

variable {F : BinaryFormat}

/-- The number nearest to `± mantissa · 10 ^ exponent`, ties to even, with that sign even when
it is zero. -/
def ofDecimal (negative : Bool) (mantissa : Nat) (exponent : Int) : Floating F :=
  if mantissa = 0 then
    ofUnits negative 0
  else match exponent with
    | .ofNat e =>
      if F.limit ≤ 3 * e then infinity negative
      else ofUnits negative (F.round (mantissa * 10 ^ e * 2 ^ F.scale) 1)
    | .negSucc e =>
      if mantissa.log2 + F.scale + 2 ≤ 3 * (e + 1) then ofUnits negative 0
      else ofUnits negative (F.round (mantissa * 2 ^ F.scale) (10 ^ (e + 1)))

end Floating

end PercentFormat
