import PercentFormat.Template.Filling

/-!
# Formatters

A formatter formats templates with arguments.  All it holds is configuration, so one call leaves
nothing behind for the next.

## Main definitions

* `Formatter`: the configuration of a formatter, its nil token
* `Formatter.run`, `Formatter.format`: one call, with its log or without
* `format`: a call of the default formatter
-/

namespace PercentFormat

/-- The text that stands for an absent argument unless another is chosen. -/
def defaultNilToken : String := "(nil)"

/-- A formatter. -/
structure Formatter where
  /-- The text that stands for an absent argument taken as a text. -/
  nilToken : String := defaultNilToken
deriving DecidableEq, Repr

namespace Formatter

/-- The formatter with another nil token. -/
def withNilToken (f : Formatter) (nilToken : String) : Formatter :=
  { f with nilToken }

/-- Formats a template with a list of arguments, and keeps the log. -/
def run (f : Formatter) (template : String) (arguments : List Value) : Run String := do
  Run.report (.formatting template.utf8ByteSize arguments.length)
  let text ← (Template.parse template.toList).fill f.nilToken arguments 0 0
  return String.ofList text

/-- Formats a template with a list of arguments. -/
def format (f : Formatter) (template : String) (arguments : List Value) :
    Except FormatError String :=
  (f.run template arguments).outcome

end Formatter

/-- Formats a template with the default formatter:
`format "%s is %d" [toValue "one", toValue (1 : UInt8)]`. -/
def format (template : String) (arguments : List Value) : Except FormatError String :=
  ({} : Formatter).format template arguments

end PercentFormat
