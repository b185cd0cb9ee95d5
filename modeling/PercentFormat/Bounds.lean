/-!
# Machine-word bounds

Numbers that come from a template or from text may be written with any number of digits.  They
are kept within the range of a 64-bit word by saturation: what lies beyond a bound becomes the
bound.
-/

namespace PercentFormat

/-- The largest unsigned 64-bit number, `2 ^ 64 - 1`, where numbers written in a directive saturate. -/
def wordMax : Nat := 18446744073709551615

/-- The least signed 64-bit number, `-2 ^ 63`. -/
def signedMin : Int := -9223372036854775808

/-- The largest signed 64-bit number, `2 ^ 63 - 1`. -/
def signedMax : Int := 9223372036854775807

/-- How many bytes a text can have at most: `2 ^ 63 - 1`. -/
def textCapacity : Nat := 9223372036854775807

/-- The signed 64-bit number nearest to `i`. -/
def clampSigned (i : Int) : Int :=
  max signedMin (min i signedMax)

theorem clampSigned_eq_self {i : Int} (hlo : signedMin ≤ i) (hhi : i ≤ signedMax) :
    clampSigned i = i := by
  unfold clampSigned; omega

theorem signedMin_le_clampSigned (i : Int) : signedMin ≤ clampSigned i := by
  unfold clampSigned; omega

theorem clampSigned_le_signedMax (i : Int) : clampSigned i ≤ signedMax := by
  unfold clampSigned signedMin signedMax; omega

end PercentFormat
