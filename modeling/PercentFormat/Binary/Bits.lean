import PercentFormat.Binary.Number

/-!
# Bit patterns

The interchange encoding packs a sign bit, an exponent field and a fraction field into one word.
Measured in units the decoding is short: exponent field `e` and fraction `f` stand for `f` units
when `e` is zero and for `(2 ^ w + f) · 2 ^ (e - 1)` units otherwise, where `w` is the width of
the fraction field.  The greatest exponent field is kept for infinity and NaN.

The field widths follow from the precision and the range, so one decoder serves every format.
-/

namespace PercentFormat

namespace BinaryFormat

variable (F : BinaryFormat)

/-- Width of the fraction field: the leading bit of the significand is not stored. -/
def fractionWidth : Nat := F.precision - 1

/-- The greatest exponent field, which marks infinity and NaN. -/
def exponentMax : Nat := F.limit - F.precision + 2

end BinaryFormat

namespace Floating

/-- The number a word stands for. -/
def ofBits (F : BinaryFormat) (w : Nat) : Floating F :=
  let f := w % 2 ^ F.fractionWidth
  let e := w / 2 ^ F.fractionWidth % (F.exponentMax + 1)
  let s := w / 2 ^ F.fractionWidth / (F.exponentMax + 1) % 2 == 1
  if e = F.exponentMax then if f = 0 then infinity s else nan
  else if e = 0 then ofUnits s f
  else ofUnits s ((2 ^ F.fractionWidth + f) * 2 ^ (e - 1))

variable {F : BinaryFormat}

/-- The word of a magnitude: adding the fraction field, leading bit and all, to the exponent
field in front of it carries that bit into the exponent. -/
def magnitudeBits (F : BinaryFormat) (n : Nat) : Nat :=
  let shift := n.log2 - F.fractionWidth
  shift * 2 ^ F.fractionWidth + n / 2 ^ shift

/-- The sign bit, in its place in front of the exponent field. -/
def signBit (F : BinaryFormat) (negative : Bool) : Nat :=
  if negative then (F.exponentMax + 1) * 2 ^ F.fractionWidth else 0

/-- The word that stands for a number; for NaN, the positive quiet one. -/
def toBits : Floating F → Nat
  | nan => F.exponentMax * 2 ^ F.fractionWidth + 2 ^ (F.fractionWidth - 1)
  | infinity s => signBit F s + F.exponentMax * 2 ^ F.fractionWidth
  | finite s n _ => signBit F s + magnitudeBits F n

/-- The 64-bit number of the same value.  The wider format has the wider range and the finer
unit, so nothing is rounded. -/
def widen : Binary32 → Binary64
  | nan => nan
  | infinity s => infinity s
  | finite s n _ => ofUnits s (n * 2 ^ (BinaryFormat.binary64.scale - BinaryFormat.binary32.scale))

end Floating

end PercentFormat
