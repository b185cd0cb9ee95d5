/-!
# Failures

Formatting fails for one of four causes.  Two lie in the template alone, one in the template
and the number of arguments, and one in the size of a text.  A failure names its cause; the
wording is `message`.

Positions are byte offsets into the UTF-8 template.  Argument indexes start at zero here and at
one in the wording, as they do in templates.
-/

namespace PercentFormat

/-- Why a template is malformed. -/
inductive TemplateError where
  /-- The template ends inside a directive. -/
  | unexpectedEnd (position : Nat)
  /-- A character that is no conversion stands where one should, at `position`. -/
  | unknownConversion (conversion : Char) (position : Nat)
deriving DecidableEq, Repr

/-- Why formatting fails. -/
inductive FormatError where
  /-- The template is malformed. -/
  | malformed (error : TemplateError)
  /-- A directive asks for the argument at `index`, counted from zero, of only `count`. -/
  | argumentOutOfRange (index count : Nat)
  /-- A padded text, or the output, would have more bytes than a text can have. -/
  | capacityOverflow
deriving DecidableEq, Repr

/-- The wording of a template error. -/
def TemplateError.message : TemplateError → String
  | .unexpectedEnd position => s!"template ended inside a directive at position {position}"
  | .unknownConversion conversion position =>
    s!"unknown conversion '{conversion}' at position {position}"

/-- The wording of a failure. -/
def FormatError.message : FormatError → String
  | .malformed error => error.message
  | .argumentOutOfRange index count =>
    s!"argument {index + 1} requested but only {count} supplied"
  | .capacityOverflow => "capacity overflow"

end PercentFormat
