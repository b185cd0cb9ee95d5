import PercentFormat.Binary.Number
import PercentFormat.Text.Digits

/-!
# Shortest decimal text

A number is written with the fewest digits that read back as the same number, always in
positional notation.  Every finite number is an exact decimal, since `2 ^ (-scale)` is
`5 ^ scale · 10 ^ (-scale)`: a magnitude of `n` units is `n · 5 ^ scale` steps of
`10 ^ (-scale)`.  Fewer digits mean a coarser grid of multiples of `10 ^ g` steps.  The search
goes through the grids from the coarsest down, on each looks at the two grid points around the
number, and stops at the first that reads back.  If both do, the nearer is taken, and of two
equally near ones the greater.  On the finest grid the number is its own neighbour, so the
search cannot fail.

## Main definitions

* `BinaryFormat.shortest F n`: the shortest decimal of `n` units, in steps of `10 ^ (-scale)`
* `Floating.text`: the text of a number
* `Floating.wholeText`: all digits of a number before its point
-/

namespace PercentFormat

namespace BinaryFormat

variable (F : BinaryFormat)

/-- The decimal `e · 10 ^ (-scale)` reads back as `n` units. -/
def ReadsBack (n e : Nat) : Prop :=
  F.round e (5 ^ F.scale) = n

instance (n e : Nat) : Decidable (F.ReadsBack n e) :=
  inferInstanceAs (Decidable (_ = _))

/-- The first grid point that reads back as `n` units, from the grid `10 ^ g` down, around the
exact decimal `d` of `n` units. -/
def shortestFrom (n d : Nat) : Nat → Nat
  | 0 => d
  | g + 1 =>
    let below := d / 10 ^ (g + 1) * 10 ^ (g + 1)
    let above := below + 10 ^ (g + 1)
    if F.ReadsBack n below then
      if F.ReadsBack n above ∧ above - d ≤ d - below then above else below
    else if F.ReadsBack n above then above
    else shortestFrom n d g

/-- The decimal of fewest digits that reads back as `n` units, in steps of `10 ^ (-scale)`; of
several, the nearest.  The coarsest grid worth a look is that of the leading digit. -/
def shortest (n : Nat) : Nat :=
  let d := n * 5 ^ F.scale
  F.shortestFrom n d ((Digits.ofNat d).length - 1)

/-- The positional text of `e · 10 ^ (-places)`: no zeros end the fraction, and no point stands
without one. -/
def positional (e places : Nat) : List Char :=
  let digits := Digits.ofNat (e % 10 ^ places)
  let fraction := List.replicate (places - digits.length) '0' ++ digits
  let kept := (fraction.reverse.dropWhile (· == '0')).reverse
  Digits.ofNat (e / 10 ^ places) ++ if kept.isEmpty then [] else '.' :: kept

end BinaryFormat

namespace Floating

variable {F : BinaryFormat}

/-- The shortest text that reads back as the number.  The sign of zero shows, that of NaN does
not. -/
def text : Floating F → List Char
  | nan => "NaN".toList
  | infinity s => if s then "-inf".toList else "inf".toList
  | finite s n _ =>
    let magnitude := BinaryFormat.positional (F.shortest n) F.scale
    if s then '-' :: magnitude else magnitude

/-- Every digit of the magnitude before the point, in full. -/
def wholeText : Floating F → List Char
  | nan => "NaN".toList
  | infinity _ => "inf".toList
  | finite _ n _ => Digits.ofNat (n / 2 ^ F.scale)

end Floating

end PercentFormat
