import PercentFormat.Directive.NumberText
import PercentFormat.Directive.Padding
import PercentFormat.Value.Coercion

/-!
# Rendering of an argument

A directive with its argument is rendered in three steps.  The *core* is the text of the argument
under the conversion, a number with its sign; the core is padded to the width; the padded text is
cut.  Precision comes in at different places: for a float it shapes the core, for a text it is
the cut, and for an integer it is ignored.

## Main definitions

* `Conversion.core`, `Conversion.cut`: the text before padding, and what is left after it
* `Conversion.render`: the rendered argument of a directive
-/

namespace PercentFormat

namespace Conversion

/-- The text of an argument under a conversion, not yet padded.  As a text, an absent value is
the nil token. -/
def core (a : Attributes) (nilToken : String) (v : Value) : Conversion → Run (List Char)
  | string | object => pure (v.naturalText?.getD nilToken).toList
  | decimal => a.integerText <$> v.toInteger
  | float => a.floatText <$> v.toFloat

/-- What is left of the padded text.  A text is cut to as many characters as the precision
allows; a number is left alone. -/
def cut (a : Attributes) (padded : List Char) : Conversion → List Char
  | string | object =>
    match a.precision with
    | none => padded
    | some most => padded.take most
  | decimal | float => padded

/-- An argument under its directive. -/
def render (a : Attributes) (nilToken : String) (v : Value) (conversion : Conversion) :
    Run (List Char) := do
  let core ← conversion.core a nilToken v
  let padded ← a.pad core
  return conversion.cut a padded

end Conversion

end PercentFormat
