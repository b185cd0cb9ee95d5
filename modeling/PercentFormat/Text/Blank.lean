/-!
# What may stand before a number

A number at the head of a text may follow blanks and carry one sign.
-/

namespace PercentFormat

namespace Text

/-- Space, tab, line feed, form feed and carriage return.  The vertical tab and all blanks
beyond ASCII are ordinary characters. -/
def isBlank (c : Char) : Bool :=
  c == ' ' || c == '\t' || c == '\n' || c == '\x0c' || c == '\r'

/-- A text without its leading blanks. -/
def dropBlanks (s : List Char) : List Char :=
  s.dropWhile isBlank

/-- Splits one leading sign off a text: whether it is a `-`, and what follows it.  A text
without a sign is positive. -/
def takeSign : List Char → Bool × List Char
  | '-' :: s => (true, s)
  | '+' :: s => (false, s)
  | s => (false, s)

/-- What follows `word` at the head of a text, upper and lower case letters of ASCII being the
same.  The word is given in lower case. -/
def dropWord? : List Char → List Char → Option (List Char)
  | [], s => some s
  | _ :: _, [] => none
  | w :: word, c :: s => if c.toLower = w then dropWord? word s else none

end Text

end PercentFormat
