import PercentFormat.Template.Basic

/-!
# The written form of templates

The grammar of templates, as a type of what is written rather than of what it means:

    template   =  { character other than "%"  |  "%%"  |  directive }
    directive  =  "%" [ number "$" ] { flag } [ number ] [ "." [ number ] ] conversion
    number     =  "1"–"9" { "0"–"9" }

A spelling keeps what the meaning forgets: the order and repetition of flags, the digits of a
number too large to be held, and whether a width or a precision was written at all.  A text is
well formed if it is what some pieces are written as, one after the other.

## Main definitions

* `Numeral`, `Spelling`, `Written`: numbers, attributes and pieces as they are written
* `Spelling.text`, `Spelling.attributes`: the characters of written attributes, and their meaning
* `WellFormed`: the texts the grammar derives
-/

namespace PercentFormat

/-! ## Numbers -/

/-- A number as a directive writes it: digits, the first of which is not `0`. -/
structure Numeral where
  /-- The digits. -/
  digits : List Char
  /-- There is a first digit, and it is one a number may begin with. -/
  leading : ∃ d ∈ digits.head?, Cursor.isLeadingDigit d = true
  /-- All of them are digits. -/
  isDigit : ∀ d ∈ digits, d.isDigit = true

/-- The number a numeral stands for, or `wordMax` if it is greater. -/
def Numeral.value (n : Numeral) : Nat :=
  min (Digits.value n.digits) wordMax

/-! ## Attributes -/

/-- Attributes as they are written. -/
structure Spelling where
  /-- The number in front of a `$`, if there is one. -/
  index : Option Numeral
  /-- The flags, in order. -/
  flags : List Flag
  /-- The width, if it is written. -/
  width : Option Numeral
  /-- What follows the point, if there is one: a number, or nothing. -/
  precision : Option (Option Numeral)

namespace Spelling

/-- The digits of a number that may be left out. -/
def numberText (n : Option Numeral) : List Char :=
  n.elim [] Numeral.digits

/-- The number itself, or zero if it is left out. -/
def numberValue (n : Option Numeral) : Nat :=
  n.elim 0 Numeral.value

/-- The characters that write an index. -/
def indexText (n : Option Numeral) : List Char :=
  n.elim [] fun n => n.digits ++ ['$']

/-- The characters that write a precision. -/
def precisionText (p : Option (Option Numeral)) : List Char :=
  p.elim [] fun n => '.' :: numberText n

/-- The characters of written attributes. -/
def text (s : Spelling) : List Char :=
  indexText s.index ++ (s.flags.map Flag.char ++ (numberText s.width ++ precisionText s.precision))

/-- What written attributes mean.  An index is written from one and meant from zero. -/
def attributes (s : Spelling) : Attributes where
  index := s.index.map fun n => n.value - 1
  flags := .ofList s.flags
  width := numberValue s.width
  precision := s.precision.map numberValue

end Spelling

/-! ## Templates -/

/-- A piece of a template as it is written. -/
inductive Written where
  /-- A character that stands for itself. -/
  | literal (c : Char) (h : c ≠ '%')
  /-- A `%`, written twice. -/
  | percent
  /-- A directive. -/
  | directive (spelling : Spelling) (conversion : Conversion)

namespace Written

/-- The characters of a written piece. -/
def text : Written → List Char
  | literal c _ => [c]
  | percent => ['%', '%']
  | directive spelling conversion => '%' :: (spelling.text ++ [conversion.char])

/-- What a written piece means. -/
def piece : Written → Piece
  | literal c _ => .literal c
  | percent => .literal '%'
  | directive spelling conversion => .directive spelling.attributes conversion

end Written

/-- The grammar of templates derives `text`. -/
def WellFormed (text : List Char) : Prop :=
  ∃ written : List Written, text = written.flatMap Written.text

end PercentFormat
