import PercentFormat.Bounds

/-!
# Directives

A directive is `%`, attributes and a conversion.  The attributes say which argument is meant, how
wide the result is at least, on which side and with what it is padded, which sign a number
shows, and how much of the text is wanted.  The conversion says what the argument is taken for.

## Main definitions

* `Flag`, `Flags`: the flag characters, and the set of those that were written
* `Attributes`: all that stands between `%` and the conversion
* `Conversion`: what the argument is taken for
-/

namespace PercentFormat

/-! ## Flags -/

/-- A flag of a directive. -/
inductive Flag where
  /-- A number that is not negative begins with a space. -/
  | space
  /-- A number that is not negative begins with a plus sign. -/
  | plus
  /-- The text stands at the left and is padded on the right. -/
  | leftJustify
  /-- Padding on the left is made of zeros. -/
  | zero
  /-- Accepted, without effect on any conversion. -/
  | alternate
deriving DecidableEq, Repr

/-- The character of a flag. -/
def Flag.char : Flag → Char
  | space => ' '
  | plus => '+'
  | leftJustify => '-'
  | zero => '0'
  | alternate => '#'

/-- The flag of a character. -/
def Flag.ofChar? : Char → Option Flag
  | ' ' => some space
  | '+' => some plus
  | '-' => some leftJustify
  | '0' => some zero
  | '#' => some alternate
  | _ => none

@[simp] theorem Flag.ofChar?_char (f : Flag) : Flag.ofChar? f.char = some f := by
  cases f <;> rfl

theorem Flag.char_eq_of_ofChar? {c : Char} {f : Flag} (h : Flag.ofChar? c = some f) :
    f.char = c := by
  unfold Flag.ofChar? at h
  split at h <;> cases h <;> rfl

/-- The set of flags of a directive.  Order and repetition leave no trace in it. -/
structure Flags where
  space : Bool := false
  plus : Bool := false
  leftJustify : Bool := false
  zero : Bool := false
  alternate : Bool := false
deriving DecidableEq, Repr

namespace Flags

/-- The set with one flag added. -/
def insert (flags : Flags) : Flag → Flags
  | .space => { flags with space := true }
  | .plus => { flags with plus := true }
  | .leftJustify => { flags with leftJustify := true }
  | .zero => { flags with zero := true }
  | .alternate => { flags with alternate := true }

/-- Whether a flag is in the set. -/
def contains (flags : Flags) : Flag → Bool
  | .space => flags.space
  | .plus => flags.plus
  | .leftJustify => flags.leftJustify
  | .zero => flags.zero
  | .alternate => flags.alternate

/-- The set of the flags in a list. -/
def ofList (fs : List Flag) : Flags :=
  fs.foldl insert {}

/-- The flags of a set, each once. -/
def toList (flags : Flags) : List Flag :=
  [Flag.space, .plus, .leftJustify, .zero, .alternate].filter flags.contains

@[simp] theorem contains_insert (flags : Flags) (f g : Flag) :
    (flags.insert f).contains g = (flags.contains g || f == g) := by
  cases f <;> cases g <;> simp [insert, contains]

@[simp] theorem contains_foldl_insert (fs : List Flag) (flags : Flags) (g : Flag) :
    (fs.foldl insert flags).contains g = (flags.contains g || fs.contains g) := by
  induction fs generalizing flags with
  | nil => simp
  | cons f fs ih =>
    rw [List.foldl_cons, ih, contains_insert, List.contains_cons, Bool.or_assoc,
      BEq.comm (a := f)]

theorem contains_ofList (fs : List Flag) (g : Flag) :
    (ofList fs).contains g = fs.contains g := by
  rw [ofList, contains_foldl_insert]
  cases g <;> rfl

end Flags

/-! ## Attributes -/

/-- All that stands between the `%` of a directive and its conversion. -/
structure Attributes where
  /-- The argument asked for, counted from zero; the next in turn if there is none. -/
  index : Option Nat := none
  /-- The flags. -/
  flags : Flags := {}
  /-- The least width of the result, in characters. -/
  width : Nat := 0
  /-- The precision, if there is a point; a point alone means zero. -/
  precision : Option Nat := none
deriving DecidableEq, Repr

namespace Attributes

/-- The character that padding on the left is made of: a zero if the flag for it is set and not
made void by left justification. -/
def fill (a : Attributes) : Char :=
  if a.flags.zero && !a.flags.leftJustify then '0' else ' '

/-- What a number that is not negative begins with.  Plus wins over space. -/
def numberSign (a : Attributes) : List Char :=
  if a.flags.plus then ['+'] else if a.flags.space then [' '] else []

end Attributes

/-! ## Conversions -/

/-- What a directive takes its argument for. -/
inductive Conversion where
  /-- A text, written `s`. -/
  | string
  /-- Any object, written `@` and shown like a text. -/
  | object
  /-- An integer, written `d`. -/
  | decimal
  /-- A floating-point number, written `f`. -/
  | float
deriving DecidableEq, Repr

/-- The character of a conversion. -/
def Conversion.char : Conversion → Char
  | string => 's'
  | object => '@'
  | decimal => 'd'
  | float => 'f'

/-- The conversion of a character. -/
def Conversion.ofChar? : Char → Option Conversion
  | 's' => some string
  | '@' => some object
  | 'd' => some decimal
  | 'f' => some float
  | _ => none

@[simp] theorem Conversion.ofChar?_char (k : Conversion) :
    Conversion.ofChar? k.char = some k := by
  cases k <;> rfl

theorem Conversion.char_eq_of_ofChar? {c : Char} {k : Conversion}
    (h : Conversion.ofChar? c = some k) : k.char = c := by
  unfold Conversion.ofChar? at h
  split at h <;> cases h <;> rfl

end PercentFormat
