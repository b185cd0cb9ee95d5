import PercentFormat.Binary.Format
import PercentFormat.Bounds

/-!
# Numbers of a binary format

`Floating F` is what a word of the format `F` can hold: a finite number with its sign, an
infinity, or no number at all.  Zero has two signs, and the sign of a zero can be read off its
text, so it is part of the number.

A finite number carries the proof that its magnitude belongs to the format.  Operations compute
an exact magnitude, round it, and hand it to `ofUnits`, which takes a magnitude out of range to
the infinity of its sign.

## Main definitions

* `Floating.ofUnits`: a signed magnitude as a number, or an overflow to infinity
* `Floating.mul`, `Floating.power`: product, and powers by repeated squaring
* `Floating.whole`, `Floating.fraction`: the two parts of a number on either side of its point
* `Floating.toSigned`: truncation to a signed 64-bit integer, saturating
* `Floating.equal`: equality of numbers, where zeros are equal and NaN equals nothing
-/

namespace PercentFormat

/-- A number of the binary format `F`. -/
inductive Floating (F : BinaryFormat) where
  /-- Not a number. -/
  | nan
  /-- Infinity, with its sign. -/
  | infinity (negative : Bool)
  /-- A finite number: its sign, and its magnitude in units of the format. -/
  | finite (negative : Bool) (units : Nat) (representable : F.Representable units)
deriving DecidableEq

/-- Numbers of the 64-bit format. -/
abbrev Binary64 := Floating .binary64

/-- Numbers of the 32-bit format. -/
abbrev Binary32 := Floating .binary32

namespace Floating

variable {F : BinaryFormat}

/-- The number of the given sign and magnitude; infinity when the magnitude is none of the
format. -/
def ofUnits (negative : Bool) (n : Nat) : Floating F :=
  if h : F.Representable n then finite negative n h else infinity negative

theorem ofUnits_of_representable (negative : Bool) {n : Nat} (h : F.Representable n) :
    (ofUnits negative n : Floating F) = finite negative n h :=
  dif_pos h

/-- Positive zero. -/
def zero : Floating F :=
  finite false 0 F.representable_zero

/-- The number nearest to an integer. -/
def ofInt (i : Int) : Floating F :=
  ofUnits (decide (i < 0)) (F.round (i.natAbs * 2 ^ F.scale) 1)

/-- The number of the same magnitude with the other sign. -/
def neg : Floating F → Floating F
  | nan => nan
  | infinity s => infinity !s
  | finite s n h => finite (!s) n h

/-- The number without its sign. -/
def abs : Floating F → Floating F
  | nan => nan
  | infinity _ => infinity false
  | finite _ n h => finite false n h

/-- Neither an infinity nor NaN. -/
def isFinite : Floating F → Bool
  | finite .. => true
  | _ => false

/-- Below zero.  Neither zero nor NaN is. -/
def isNegative : Floating F → Bool
  | nan => false
  | infinity s => s
  | finite s n _ => s && n != 0

/-- Zero of either sign. -/
def isZero : Floating F → Bool
  | finite _ n _ => n == 0
  | _ => false

/-- Equality of numbers: the two zeros are equal, and NaN differs from everything, itself
included. -/
def equal : Floating F → Floating F → Bool
  | infinity s, infinity t => s == t
  | finite s m _, finite t n _ => m == n && (s == t || m == 0)
  | _, _ => false

/-! ## Products and powers -/

/-- The product, rounded once. -/
def mul : Floating F → Floating F → Floating F
  | nan, _ | _, nan => nan
  | infinity s, infinity t => infinity (s ^^ t)
  | infinity s, finite t n _ => if n = 0 then nan else infinity (s ^^ t)
  | finite s m _, infinity t => if m = 0 then nan else infinity (s ^^ t)
  | finite s m _, finite t n _ => ofUnits (s ^^ t) (F.round (m * n) (2 ^ F.scale))

/-- `acc · a ^ n` by repeated squaring, each product rounded: the base is squared once for every
binary digit of the exponent, and the accumulator takes it up where the digit is one. -/
def powerFrom (acc a : Floating F) (n : Nat) : Floating F :=
  let acc' := if n % 2 = 1 then acc.mul a else acc
  if n / 2 = 0 then acc' else powerFrom acc' (a.mul a) (n / 2)
termination_by n

/-- `a ^ n` by repeated squaring.  A product that has to be rounded shows in the last bits, so
the order of the products is part of the result. -/
def power (a : Floating F) (n : Nat) : Floating F :=
  powerFrom (ofInt 1) a n

/-! ## The two sides of the point -/

/-- The part of a number left of its point, with its sign. -/
def whole : Floating F → Floating F
  | finite s n _ => ofUnits s (n / 2 ^ F.scale * 2 ^ F.scale)
  | x => x

/-- The part of a finite number right of its point, with its sign. -/
def fraction : Floating F → Floating F
  | finite s n _ => ofUnits s (n % 2 ^ F.scale)
  | _ => nan

/-- The number truncated toward zero, as a signed 64-bit integer.  Infinities and numbers out of
range saturate, and NaN counts as zero. -/
def toSigned : Floating F → Int
  | nan => 0
  | infinity s => if s then signedMin else signedMax
  | finite s n _ => clampSigned (if s then -(n / 2 ^ F.scale : Nat) else (n / 2 ^ F.scale : Nat))

end Floating

end PercentFormat
