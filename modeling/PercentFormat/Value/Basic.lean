import PercentFormat.Binary.Bits
import PercentFormat.Binary.Shortest

/-!
# Argument values

Templates are filled from a list of values.  A value is of one of six kinds, so that rendering
goes by the kind alone; what is none of the first five comes as its text.

## Main definitions

* `Value`: an argument; `Value.naturalText?`, its text, which only an absent value lacks
* `ToValue`: the types whose elements can be given as arguments
-/

namespace PercentFormat

/-- An argument of a formatting call. -/
inductive Value where
  /-- No value. -/
  | absent
  /-- A text. -/
  | text (s : String)
  /-- A signed integer. -/
  | int (i : Int64)
  /-- An unsigned integer. -/
  | uint (u : UInt64)
  /-- A floating-point number. -/
  | float (x : Binary64)
  /-- Anything else that can be shown, as the text that shows it. -/
  | other (shown : String)

namespace Value

/-- Whether there is no value. -/
def isAbsent : Value → Bool
  | absent => true
  | _ => false

/-- The natural text of a value: texts as they are, integers in decimal, floats with the fewest
digits that read back. -/
def naturalText? : Value → Option String
  | absent => none
  | text s | other s => some s
  | int i => some (String.ofList (Digits.ofInt i.toInt))
  | uint u => some (String.ofList (Digits.ofNat u.toNat))
  | float x => some (String.ofList x.text)

/-- Equality of values: the same kind and the same content, floats compared as numbers. -/
protected def equal : Value → Value → Bool
  | absent, absent => true
  | text s, text t | other s, other t => s == t
  | int i, int j => i == j
  | uint u, uint v => u == v
  | float x, float y => x.equal y
  | _, _ => false

instance : BEq Value := ⟨Value.equal⟩

/-- Anything that has a text, as the value that shows it. -/
def showing {α : Type} [ToString α] (a : α) : Value :=
  other (toString a)

end Value

instance {F : BinaryFormat} : ToString (Floating F) :=
  ⟨fun x => String.ofList x.text⟩

/-! ## Types of arguments

Integers widen to 64 bits and keep their signedness; 32-bit floats widen too, and so show the
digits of the wider number.  A character is a text, and a truth value is shown. -/

/-- Types whose elements can be given as arguments. -/
class ToValue (α : Type) where
  /-- The argument that an element stands for. -/
  toValue : α → Value

export ToValue (toValue)

instance : ToValue Value := ⟨id⟩
instance : ToValue String := ⟨.text⟩
instance : ToValue Char := ⟨fun c => .text (String.singleton c)⟩
instance : ToValue Bool := ⟨.showing⟩
instance : ToValue Int8 := ⟨fun i => .int i.toInt64⟩
instance : ToValue Int16 := ⟨fun i => .int i.toInt64⟩
instance : ToValue Int32 := ⟨fun i => .int i.toInt64⟩
instance : ToValue Int64 := ⟨.int⟩
instance : ToValue UInt8 := ⟨fun u => .uint u.toUInt64⟩
instance : ToValue UInt16 := ⟨fun u => .uint u.toUInt64⟩
instance : ToValue UInt32 := ⟨fun u => .uint u.toUInt64⟩
instance : ToValue UInt64 := ⟨.uint⟩
instance : ToValue Binary32 := ⟨fun x => .float x.widen⟩
instance : ToValue Binary64 := ⟨.float⟩

/-- An optional argument is absent or the argument it holds. -/
instance {α : Type} [ToValue α] : ToValue (Option α) :=
  ⟨fun a => a.elim .absent toValue⟩

end PercentFormat
