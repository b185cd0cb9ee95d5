import PercentFormat.Binary.Decimal
import PercentFormat.Text.Blank
import PercentFormat.Text.Digits

/-!
# The float literal at the head of a text

Text given where a float is asked for is read as far as it is a float literal: a sign, then
`inf`, `infinity` or `nan` in letters of any case, or digits with at most one point among them
and at most one exponent behind them.  The longest literal counts.  An `e` that no digit follows
is not an exponent but the first character of the rest.

## Main definitions

* `FloatLiteral`: what a literal writes, and `FloatLiteral.value`, the number nearest to it
* `FloatLiteral.read?`: the literal a text begins with, and the rest of the text
* `Text.leadingFloat?`: the number at the head of a text
-/

namespace PercentFormat

/-- What follows the sign of a float literal. -/
inductive FloatLiteral.Body where
  /-- A word for infinity. -/
  | infinity
  /-- The word `nan`. -/
  | nan
  /-- The digits before and after the point, and the exponent of ten. -/
  | decimal (whole fraction : List Char) (exponent : Int)
deriving DecidableEq, Repr

/-- A float literal. -/
structure FloatLiteral where
  /-- Whether it is written with a `-`. -/
  negative : Bool
  /-- What it writes behind the sign. -/
  body : FloatLiteral.Body
deriving DecidableEq, Repr

namespace FloatLiteral

/-- The number nearest to what a literal writes. -/
def value : FloatLiteral → Binary64
  | ⟨negative, .infinity⟩ => .infinity negative
  | ⟨_, .nan⟩ => .nan
  | ⟨negative, .decimal whole fraction exponent⟩ =>
    .ofDecimal negative (Digits.value (whole ++ fraction)) (exponent - fraction.length)

/-! ## Reading -/

/-- The exponent a text begins with, and the rest; zero and the whole text if it begins with
none. -/
def readExponent (s : List Char) : Int × List Char :=
  match s with
  | 'e' :: r | 'E' :: r =>
    let (negative, t) := Text.takeSign r
    let ds := t.takeWhile Char.isDigit
    if ds.isEmpty then (0, s)
    else (if negative then -(Digits.value ds) else Digits.value ds, t.dropWhile Char.isDigit)
  | _ => (0, s)

/-- The digits behind a point that a text begins with, and the rest; no digits and the whole
text if it begins with none.  The point is taken even when no digit follows it. -/
def readFraction : List Char → List Char × List Char
  | '.' :: r => (r.takeWhile Char.isDigit, r.dropWhile Char.isDigit)
  | s => ([], s)

/-- The decimal a text begins with, and the rest; `none` without a digit before or after the
point. -/
def readDecimal? (s : List Char) : Option (Body × List Char) :=
  let whole := s.takeWhile Char.isDigit
  let (fraction, afterFraction) := readFraction (s.dropWhile Char.isDigit)
  if whole.isEmpty && fraction.isEmpty then none
  else
    let (exponent, rest) := readExponent afterFraction
    some (.decimal whole fraction exponent, rest)

/-- The body a text begins with, and the rest.  `infinity` is tried before the shorter `inf`. -/
def readBody? (s : List Char) : Option (Body × List Char) :=
  match Text.dropWord? "infinity".toList s with
  | some rest => some (.infinity, rest)
  | none =>
    match Text.dropWord? "inf".toList s with
    | some rest => some (.infinity, rest)
    | none =>
      match Text.dropWord? "nan".toList s with
      | some rest => some (.nan, rest)
      | none => readDecimal? s

/-- The longest literal a text begins with, and the rest. -/
def read? (s : List Char) : Option (FloatLiteral × List Char) :=
  let (negative, t) := Text.takeSign s
  (readBody? t).map fun (body, rest) => (⟨negative, body⟩, rest)

end FloatLiteral

namespace Text

/-- The number at the head of a text, blanks apart, or `none` if it begins with no literal. -/
def leadingFloat? (text : List Char) : Option Binary64 :=
  (FloatLiteral.read? (dropBlanks text)).map fun (literal, _) => literal.value

end Text

end PercentFormat
