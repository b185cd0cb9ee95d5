import PercentFormat.Failure

/-!
# Log events

A formatting call reports what it does as a list of events: that it starts, each text that had
to be read as a number and could not, and the failure it ends in.  A template that ends inside a
directive and a result too large are reported by the failure alone.
-/

namespace PercentFormat

/-- How much attention an event asks for. -/
inductive Level where
  | trace
  | debug
deriving DecidableEq, Repr

/-- One entry of the log. -/
inductive Event where
  /-- A call starts, on a template of so many bytes with so many arguments. -/
  | formatting (templateLength argumentCount : Nat)
  /-- A text without an integer at its head was asked for one and counts as zero. -/
  | notAnInteger (text : String)
  /-- A text without a number at its head was asked for one and counts as zero. -/
  | notANumber (text : String)
  /-- The call fails at a character that is no conversion. -/
  | unknownConversion (conversion : Char) (position : Nat)
  /-- The call fails for want of an argument. -/
  | argumentOutOfRange (index count : Nat)
deriving DecidableEq, Repr

namespace Event

/-- The level of an event: only the start of a call is a mere trace. -/
def level : Event → Level
  | formatting .. => .trace
  | _ => .debug

/-- The wording of an event. -/
def message : Event → String
  | formatting .. => "Formatting template"
  | notAnInteger _ => "Value is not an integer, using zero"
  | notANumber _ => "Value is not a number, using zero"
  | unknownConversion .. => "Unknown conversion"
  | argumentOutOfRange .. => "Argument out of range"

/-- The event that reports a failure, if it is reported. -/
def ofError? : FormatError → Option Event
  | .malformed (.unknownConversion conversion position) =>
    some (unknownConversion conversion position)
  | .argumentOutOfRange index count => some (argumentOutOfRange index count)
  | .malformed (.unexpectedEnd _) | .capacityOverflow => none

end Event

end PercentFormat
