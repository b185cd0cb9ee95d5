import PercentFormat.Proofs.Sign

/-!
# Floats as numbers and as texts

Without a precision a float is shown by `%f` with as few digits as it needs, which is how `%s` shows
it.  The two get there on different ways.  As a text, a number is written out as it stands.  As a
number it is taken apart first: what is not finite, what is whole and what has a fraction are put
together from a sign and digits in three ways of their own, and a whole number loses its fraction
before it is written out.

That loss is none, because a number without a fraction is its own whole part, whatever its size.  What
is left of the difference is the sign: as a number, zero has none, and as a text, it shows its own.

## Main results

* `whole_of_isZero_fraction`: a number without a fraction is its whole part
* `floatText_natural`: without a precision, a float is shown as its sign and the text of its magnitude
* `render_float_eq_string`: where `%f` and `%s` show the same
-/

namespace PercentFormat

namespace Floating

variable {F : BinaryFormat} {x : Floating F}

/-- A number without a fraction is its whole part, whatever its size. -/
theorem whole_of_isZero_fraction (hx : x.isFinite = true) (h : x.fraction.isZero = true) :
    x.whole = x := by
  cases x with
  | nan => cases hx
  | infinity s => cases hx
  | finite s n hn =>
    have hmod : n % 2 ^ F.scale = 0 := by simpa [fraction_finite, isZero] using h
    have hunits : n / 2 ^ F.scale * 2 ^ F.scale = n :=
      Nat.div_mul_cancel (Nat.dvd_of_mod_eq_zero hmod)
    simp only [whole_finite, hunits]

theorem text_eq_of_ne (h : x ≠ neg zero) : x.text = Text.signText x.isNegative ++ x.abs.text := by
  cases hzero : x.isZero with
  | false => exact text_eq hzero
  | true =>
    cases x with
    | nan => cases hzero
    | infinity s => cases hzero
    | finite s n hn =>
      obtain rfl : n = 0 := by simpa [isZero] using hzero
      cases s with
      | false => rfl
      | true => exact absurd rfl h

end Floating

namespace Attributes

variable {a : Attributes}

theorem magnitudeText_natural (hp : a.precision = none) (x : Binary64) :
    a.magnitudeText x = x.text := by
  simp only [magnitudeText, hp]
  split
  next hx =>
    split
    next hfraction => rw [Floating.whole_of_isZero_fraction hx hfraction]
    next => rfl
  next => rfl

/-- **Without a precision, a float is shown as its sign and the text of its magnitude.** -/
theorem floatText_natural (hp : a.precision = none) (x : Binary64) :
    a.floatText x = a.sign x.isNegative ++ x.abs.text := by
  rw [floatText_eq, magnitudeText_natural hp]

theorem sign_of_unprefixed (hplus : a.flags.plus = false) (hspace : a.flags.space = false)
    (negative : Bool) : a.sign negative = Text.signText negative := by
  simp [sign, Text.signText, numberSign, hplus, hspace]

end Attributes

namespace Conversion

variable {a : Attributes}

theorem render_float_float (a : Attributes) (nilToken : String) (x : Binary64) :
    float.render a nilToken (.float x) = a.pad (a.floatText x) := by
  simp [render, core, cut, Value.toFloat]

theorem render_string_float (hp : a.precision = none) (nilToken : String) (x : Binary64) :
    string.render a nilToken (.float x) = a.pad x.text := by
  simp [render, core, cut, Value.naturalText?, hp]

/-- **`%f` and `%s` show the same of a float** if neither a precision nor a prefix is asked for: the
same text in every width, on either side of its padding, and the same failure where the width exceeds
the capacity.  The one exception is minus zero, of which `%f` pads `0` and `%s` pads `-0`. -/
theorem render_float_eq_string (a : Attributes) (nilToken : String) (hplus : a.flags.plus = false)
    (hspace : a.flags.space = false) (hp : a.precision = none) :
    (∀ x : Binary64, x ≠ .neg .zero →
      float.render a nilToken (.float x) = string.render a nilToken (.float x)) ∧
    float.render a nilToken (.float (.neg .zero)) = a.pad ['0'] ∧
    string.render a nilToken (.float (.neg .zero)) = a.pad ['-', '0'] := by
  have hshown : ∀ x : Binary64, a.floatText x = Text.signText x.isNegative ++ x.abs.text := by
    intro x
    rw [Attributes.floatText_natural hp, Attributes.sign_of_unprefixed hplus hspace]
  have hzero : (.neg .zero : Binary64).text = ['-', '0'] := by decide +kernel
  refine ⟨?_, ?_, ?_⟩
  · intro x hx
    rw [render_float_float, render_string_float hp, hshown, Floating.text_eq_of_ne hx]
  · have habs : (.neg .zero : Binary64).abs.text = ['0'] := by decide +kernel
    rw [render_float_float, hshown, habs]
    rfl
  · rw [render_string_float hp, hzero]

/-- A negative whole number that no machine word holds, with zeros in front of its sign. -/
theorem render_float_eq_string_beyond_words :
    (.ofDecimal true 1 22 : Binary64) ≠ .neg .zero ∧
      float.render ⟨none, { zero := true }, 26, none⟩ "(nil)" (.float (.ofDecimal true 1 22)) =
        string.render ⟨none, { zero := true }, 26, none⟩ "(nil)" (.float (.ofDecimal true 1 22)) ∧
      (string.render ⟨none, { zero := true }, 26, none⟩ "(nil)"
        (.float (.ofDecimal true 1 22))).outcome = .ok "00-10000000000000000000000".toList := by
  have hx : (.ofDecimal true 1 22 : Binary64) ≠ .neg .zero := by decide +kernel
  exact ⟨hx, (render_float_eq_string ⟨none, { zero := true }, 26, none⟩ "(nil)" rfl rfl rfl).1 _ hx,
    by decide +kernel⟩

end Conversion

end PercentFormat
