import PercentFormat.Directive.Rendering

/-!
# Rendering, apart from the log

Rendering an argument reports what it could not read and fails for want of capacity.  Here the
log is left aside: an argument always has a core, the padded core either fits or does not, and if
it fits, the rendered text is a function of attributes, argument and nil token.

## Main definitions

* `Value.asInteger`, `Value.asFloat`: the number a value counts as
* `Conversion.coreText`: the text of an argument before padding
* `Attributes.Fits`, `Attributes.padded`: whether padding stays within the capacity, and its result
* `Conversion.rendered`: the rendered text

## Main results

* `outcome_pad`: padding fails exactly where it does not fit
* `outcome_render`: rendering fails exactly where padding does
-/

namespace PercentFormat

open Text (byteLength)

/-! ## The number a value counts as -/

namespace Value

/-- The integer a value counts as; a text that holds none counts as zero. -/
def asInteger : Value → Int
  | absent => 0
  | int i => i.toInt
  | uint u => u.toNat
  | float x => x.toSigned
  | text s | other s => (Text.leadingInteger? s.toList).getD 0

/-- The floating-point number a value counts as; a text that holds none counts as zero. -/
def asFloat : Value → Binary64
  | absent => .zero
  | int i => .ofInt i.toInt
  | uint u => .ofInt u.toNat
  | float x => x
  | text s | other s => (Text.leadingFloat? s.toList).getD .zero

theorem outcome_toInteger (v : Value) : v.toInteger.outcome = .ok v.asInteger := by
  cases v with
  | text s | other s =>
    simp only [toInteger, asInteger]
    cases Text.leadingInteger? s.toList <;> rfl
  | _ => rfl

theorem outcome_toFloat (v : Value) : v.toFloat.outcome = .ok v.asFloat := by
  cases v with
  | text s | other s =>
    simp only [toFloat, asFloat]
    cases Text.leadingFloat? s.toList <;> rfl
  | _ => rfl

end Value

/-! ## Padding -/

namespace Attributes

/-- A text padded to the width stays within the capacity of a text.  One that is not padded is
not asked. -/
def Fits (a : Attributes) (core : List Char) : Prop :=
  core.length < a.width → byteLength core + (a.width - core.length) ≤ textCapacity

instance (a : Attributes) (core : List Char) : Decidable (a.Fits core) :=
  inferInstanceAs (Decidable (_ → _))

/-- A text padded to the width. -/
def padded (a : Attributes) (core : List Char) : List Char :=
  if a.flags.leftJustify then core ++ List.replicate (a.width - core.length) ' '
  else List.replicate (a.width - core.length) a.fill ++ core

theorem padded_of_le {a : Attributes} {core : List Char} (h : a.width ≤ core.length) :
    a.padded core = core := by
  simp [padded, Nat.sub_eq_zero_of_le h]

theorem byteLength_padded (a : Attributes) (core : List Char) :
    byteLength (a.padded core) = byteLength core + (a.width - core.length) := by
  have hfill : a.fill.utf8Size = 1 := by
    rw [fill]
    split <;> rfl
  have hspace : (' ' : Char).utf8Size = 1 := rfl
  unfold padded
  split
  · rw [Text.byteLength_append, Text.byteLength_replicate, hspace, Nat.mul_one]
  · rw [Text.byteLength_append, Text.byteLength_replicate, hfill, Nat.mul_one, Nat.add_comm]

/-- Padding fails exactly where the padded text does not fit. -/
theorem outcome_pad (a : Attributes) (core : List Char) :
    (a.pad core).outcome =
      if a.Fits core then .ok (a.padded core) else .error .capacityOverflow := by
  by_cases hw : core.length < a.width
  · by_cases hc : byteLength core + (a.width - core.length) ≤ textCapacity
    · have hfits : a.Fits core := fun _ => hc
      rw [if_pos hfits, padded]
      cases hl : a.flags.leftJustify with
      | true => rw [pad_leftJustify hl hw hc]; rfl
      | false => rw [pad_fill hl hw hc]; rfl
    · have hfits : ¬ a.Fits core := by
        intro h
        exact hc (h hw)
      rw [if_neg hfits, pad_overflow hw (Nat.lt_of_not_le hc)]
      rfl
  · have hfits : a.Fits core := fun h => absurd h hw
    have hle : a.width ≤ core.length := Nat.le_of_not_lt hw
    rw [if_pos hfits, pad_of_le hle, padded_of_le hle]
    rfl

end Attributes

/-! ## Rendering -/

namespace Conversion

/-- The text of an argument under a conversion, not yet padded. -/
def coreText (a : Attributes) (nilToken : String) (v : Value) : Conversion → List Char
  | string | object => (v.naturalText?.getD nilToken).toList
  | decimal => a.integerText v.asInteger
  | float => a.floatText v.asFloat

/-- An argument under its directive, where it fits. -/
def rendered (a : Attributes) (nilToken : String) (v : Value) (conversion : Conversion) :
    List Char :=
  conversion.cut a (a.padded (conversion.coreText a nilToken v))

variable (a : Attributes) (nilToken : String) (v : Value) (conversion : Conversion)

theorem outcome_core :
    (conversion.core a nilToken v).outcome = .ok (conversion.coreText a nilToken v) := by
  cases conversion with
  | string | object => rfl
  | decimal =>
    rw [core, Run.outcome_map, v.outcome_toInteger]
    rfl
  | float =>
    rw [core, Run.outcome_map, v.outcome_toFloat]
    rfl

/-- **Rendering fails exactly where padding does.** -/
theorem outcome_render :
    (conversion.render a nilToken v).outcome =
      if a.Fits (conversion.coreText a nilToken v) then .ok (conversion.rendered a nilToken v)
      else .error .capacityOverflow := by
  have hcore := outcome_core a nilToken v conversion
  have hpad := a.outcome_pad (conversion.coreText a nilToken v)
  rw [render, Run.outcome_bind, hcore]
  show (a.pad _ >>= fun padded => pure (conversion.cut a padded)).outcome = _
  rw [Run.outcome_bind, hpad]
  split <;> rfl

variable {a nilToken v conversion}

theorem outcome_render_of_ne
    (h : (conversion.render a nilToken v).outcome ≠ .error .capacityOverflow) :
    (conversion.render a nilToken v).outcome = .ok (conversion.rendered a nilToken v) := by
  rw [outcome_render] at h ⊢
  exact if_pos (Decidable.byContradiction fun hfits => h (if_neg hfits))

theorem rendered_of_precision (h : a.precision = none) :
    conversion.rendered a nilToken v = a.padded (conversion.coreText a nilToken v) := by
  rw [rendered]
  cases conversion with
  | string | object => rw [cut, h]
  | decimal | float => rfl

end Conversion

end PercentFormat
