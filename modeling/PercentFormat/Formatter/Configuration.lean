import PercentFormat.Formatter.Basic
import PercentFormat.Json

/-!
# Formatters from configuration data

A formatter can be described by a JSON value in one of two forms: by name, an object with the
member `nil_token`, or by position, an array with the token as its only element.  What is left
out takes its default; what is not known by name is passed over.  Everything else describes no
formatter.
-/

namespace PercentFormat

namespace Formatter

/-- The formatter with the given nil token, which has to be a string. -/
def ofToken? : Json → Option Formatter
  | .string nilToken => some { nilToken }
  | _ => none

/-- The formatter a JSON value describes. -/
def ofJson? : Json → Option Formatter
  | .object names _ member =>
    match names.finIdxOf? "nil_token" with
    | none => some {}
    | some i => ofToken? (member i)
  | .array [] => some {}
  | .array [token] => ofToken? token
  | _ => none

end Formatter

end PercentFormat
