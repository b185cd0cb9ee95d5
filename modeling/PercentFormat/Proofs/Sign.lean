import PercentFormat.Proofs.ExactValue
import PercentFormat.Proofs.FloatText

/-!
# Signs

The sign of a float is written in three different ways: in front of its digits, as part of a text
that has it already, and as the prefix that the flags ask for.  Which of them it is depends on the
precision and on what the number is.  Whatever the way, the result is the same: a sign that the
digits of the number have no say in, and what is shown of the magnitude, which the flags have none
in.  The number zero is where this needs care, since its text shows the sign of a negative zero and
its digits do not, and it is never shown as it stands.

## Main definitions

* `Attributes.sign`: what a number begins with
* `Attributes.magnitudeText`: what is shown of a float beside its sign
* `Attributes.unsigned`: the attributes that ask for no prefix

## Main results

* `floatText_eq`: a float is shown as its sign and its magnitude
* `isUnsigned_magnitudeText`: there is no sign in what is shown of a magnitude
* `sign_symmetry`: a number has one sign, in front
-/

namespace PercentFormat

namespace Floating

variable {F : BinaryFormat}

/-! ## Texts that have their sign -/

theorem isFinite_abs (x : Floating F) : x.abs.isFinite = x.isFinite := by
  cases x <;> rfl

/-- Apart from zero, the text of a number is that of its magnitude, and a `-` if it is negative. -/
theorem text_eq {x : Floating F} (h : x.isZero = false) :
    x.text = Text.signText x.isNegative ++ x.abs.text := by
  cases x with
  | nan => rfl
  | infinity s => cases s <;> rfl
  | finite s n hn =>
    have hne : n ≠ 0 := by
      rintro rfl
      cases h
    cases s with
    | false => rfl
    | true => simp [text, abs, isNegative, hne, Text.signText]

theorem isZero_of_fraction {x : Floating F} (hx : x.isFinite = true)
    (h : x.fraction.abs.isZero = false) : x.isZero = false := by
  cases x with
  | nan => cases hx
  | infinity s => cases hx
  | finite s n hn =>
    rw [fraction_finite] at h
    have hmod : n % 2 ^ F.scale ≠ 0 := by simpa [abs, isZero] using h
    have hne : n ≠ 0 := by
      rintro rfl
      exact hmod (Nat.zero_mod _)
    simpa [isZero] using hne

end Floating

namespace Attributes

variable (a : Attributes)

/-- What a number begins with: a `-` if it is negative, and what the flags ask for otherwise. -/
def sign (negative : Bool) : List Char :=
  if negative then ['-'] else a.numberSign

/-- What is shown of a float that has no sign.  The flags have no say in it. -/
def magnitudeText (x : Binary64) : List Char :=
  if x.isFinite then
    match a.precision with
    | none => if x.fraction.isZero then x.whole.text else x.text
    | some 0 => x.whole.text
    | some places => x.whole.text ++ '.' :: fractionText x.fraction places
  else x.text

theorem magnitudeText_cut {x : Binary64} (hx : x.isFinite = true) (hp : a.precision = some 0) :
    a.magnitudeText x = x.whole.text := by
  simp only [magnitudeText, hx, hp, if_true]

theorem magnitudeText_whole {x : Binary64} (hx : x.isFinite = true) (hp : a.precision = none)
    (hfraction : x.fraction.isZero = true) : a.magnitudeText x = x.whole.text := by
  simp only [magnitudeText, hx, hp, hfraction, if_true]

theorem magnitudeText_places {x : Binary64} (hx : x.isFinite = true) {places : Nat}
    (hp : a.precision = some (places + 1)) :
    a.magnitudeText x = x.whole.text ++ '.' :: fractionText x.fraction (places + 1) := by
  simp only [magnitudeText, hx, hp, if_true]

/-- **A float is shown as its sign and its magnitude**, whichever way it is put together. -/
theorem floatText_eq (x : Binary64) :
    a.floatText x = a.sign x.isNegative ++ a.magnitudeText x.abs := by
  have hstands : x.isZero = false →
      (if x.isNegative then x.text else a.sign x.isNegative ++ x.text) =
        a.sign x.isNegative ++ x.abs.text := by
    intro hzero
    rw [Floating.text_eq hzero]
    cases x.isNegative <;> rfl
  unfold floatText magnitudeText
  rw [Floating.isFinite_abs, Floating.whole_abs, Floating.fraction_abs]
  cases hx : x.isFinite with
  | false =>
    have hzero : x.isZero = false := by
      cases x with
      | finite s n h => cases hx
      | nan => rfl
      | infinity s => rfl
    exact hstands hzero
  | true =>
    cases hp : a.precision with
    | none =>
      cases hfraction : x.fraction.abs.isZero with
      | true => rfl
      | false => exact hstands (Floating.isZero_of_fraction hx hfraction)
    | some places =>
      cases places with
      | zero => rfl
      | succ places => exact List.append_assoc _ _ _

theorem integerText_eq (i : Int) :
    a.integerText i = a.sign (decide (i < 0)) ++ Digits.ofNat i.natAbs := by
  by_cases h : i < 0 <;> simp [integerText, sign, Digits.ofInt, h]

end Attributes

/-! ## Texts without a sign -/

namespace Text

/-- A text that is there, and that none of the signs of a number is in. -/
structure IsUnsigned (s : List Char) : Prop where
  ne_nil : s ≠ []
  not_mem : ∀ c ∈ s, c ∉ ['-', '+', ' ']

theorem isUnsigned_word {s : List Char} (hne : s ≠ []) (h : s.all Char.isAlpha = true) :
    IsUnsigned s := by
  refine ⟨hne, ?_⟩
  intro c hc hsign
  have halpha := List.all_eq_true.mp h c hc
  simp only [List.mem_cons, List.not_mem_nil, or_false] at hsign
  rcases hsign with rfl | rfl | rfl <;> cases halpha

theorem isUnsigned_nan : IsUnsigned "NaN".toList :=
  isUnsigned_word (by decide) (by decide)

theorem isUnsigned_inf : IsUnsigned "inf".toList :=
  isUnsigned_word (by decide) (by decide)

theorem not_mem_signs {d : Char} (h : d.isDigit = true) : d ∉ ['-', '+', ' '] := by
  simp only [List.mem_cons, List.not_mem_nil, or_false]
  rintro (rfl | rfl | rfl) <;> cases h

theorem isUnsigned_digits (n : Nat) : IsUnsigned (Digits.ofNat n) :=
  ⟨Digits.ofNat_ne_nil n, fun _ hd => not_mem_signs (Digits.isDigit_of_mem_ofNat hd)⟩

theorem IsUnsigned.append {s t : List Char} (hs : IsUnsigned s)
    (ht : ∀ c ∈ t, c ∉ ['-', '+', ' ']) : IsUnsigned (s ++ t) := by
  refine ⟨List.append_ne_nil_of_left_ne_nil hs.ne_nil t, ?_⟩
  intro c hc
  rcases List.mem_append.mp hc with hc | hc
  · exact hs.not_mem c hc
  · exact ht c hc

end Text

namespace Floating

variable {F : BinaryFormat}

open Text (IsUnsigned)

theorem isUnsigned_wholeText (x : Floating F) : IsUnsigned x.wholeText := by
  cases x with
  | nan => exact Text.isUnsigned_nan
  | infinity s => exact Text.isUnsigned_inf
  | finite s n h => exact Text.isUnsigned_digits _

theorem isUnsigned_text_abs (hs : 0 < F.scale) (x : Floating F) : IsUnsigned x.abs.text := by
  cases x with
  | nan => exact Text.isUnsigned_nan
  | infinity s => exact Text.isUnsigned_inf
  | finite s n h =>
    obtain ⟨kept, hkept, htext, -⟩ := exists_text hs h false
    rw [abs, htext]
    refine (Text.isUnsigned_digits _).append ?_
    intro c hc
    unfold Text.fractionText at hc
    split at hc
    · cases hc
    · rcases List.mem_cons.mp hc with rfl | hc
      · decide
      · exact Text.not_mem_signs (hkept c hc)

end Floating

namespace Attributes

open Text (IsUnsigned)

variable (a : Attributes)

theorem isUnsigned_fractionText (x : Binary64) (places : Nat) :
    IsUnsigned (fractionText x places) := by
  unfold fractionText
  split
  · exact Text.isUnsigned_digits 0
  · exact Floating.isUnsigned_wholeText _

/-- **There is no sign in what is shown of a magnitude.** -/
theorem isUnsigned_magnitudeText (x : Binary64) : IsUnsigned (a.magnitudeText x.abs) := by
  have hscale : 0 < BinaryFormat.binary64.scale := by decide
  unfold magnitudeText
  rw [Floating.whole_abs, Floating.fraction_abs]
  have hwhole := Floating.isUnsigned_text_abs hscale x.whole
  have htext := Floating.isUnsigned_text_abs hscale x
  split
  · split
    · split
      · exact hwhole
      · exact htext
    · exact hwhole
    · refine hwhole.append ?_
      intro c hc
      rcases List.mem_cons.mp hc with rfl | hc
      · decide
      · exact (isUnsigned_fractionText _ _).not_mem c hc
  · exact htext

/-! ## One sign -/

/-- The attributes without the flags that ask for a prefix. -/
def unsigned : Attributes :=
  { a with flags := { a.flags with plus := false, space := false } }

theorem floatText_unsigned {x : Binary64} (hx : x.isNegative = false) :
    a.unsigned.floatText x = a.magnitudeText x.abs := by
  rw [floatText_eq, hx]
  rfl

/-- **A number has one sign, in front.**

* The opposite of a float that is above zero is shown as that float without a prefix, after a `-`.
* Any float that is not below zero is shown so too, after the prefix that the flags ask for.
* Both zeros are shown alike.
* An integer below zero is its digits after a `-`, and any other is its digits after the prefix.

Nothing else that is shown of a number is a sign, be it finite or not, and whatever the precision.
-/
theorem sign_symmetry :
    (∀ x : Binary64, x.IsPositive → a.floatText x.neg = '-' :: a.unsigned.floatText x) ∧
    (∀ x : Binary64, x.isNegative = false →
      a.floatText x = a.numberSign ++ a.unsigned.floatText x) ∧
    (∀ h, a.floatText (.finite true 0 h) = a.floatText (.finite false 0 h)) ∧
    (∀ n : Nat, 0 < n → a.integerText (-n) = '-' :: Digits.ofNat n) ∧
    (∀ n : Nat, a.integerText n = a.numberSign ++ Digits.ofNat n) ∧
    (∀ x : Binary64, ∃ shown, IsUnsigned shown ∧ a.floatText x = a.sign x.isNegative ++ shown) ∧
    ∀ i : Int, ∃ shown, IsUnsigned shown ∧ a.integerText i = a.sign (decide (i < 0)) ++ shown := by
  refine ⟨?_, ?_, ?_, ?_, ?_, ?_, ?_⟩
  · intro x hx
    have hneg := x.isPositive_iff.mp hx
    have habs : x.neg.abs = x.abs := by cases x <;> rfl
    rw [floatText_eq, hneg, habs, a.floatText_unsigned (Floating.isNegative_of_neg hneg)]
    rfl
  · intro x hx
    rw [floatText_eq, hx, a.floatText_unsigned hx]
    rfl
  · intro h
    rw [floatText_eq, floatText_eq]
    rfl
  · intro n hn
    have hneg : decide (-(n : Int) < 0) = true := by simpa using hn
    rw [integerText_eq, hneg, Int.natAbs_neg, Int.natAbs_natCast]
    rfl
  · intro n
    have hpos : decide ((n : Int) < 0) = false := by simp
    rw [integerText_eq, hpos, Int.natAbs_natCast]
    rfl
  · intro x
    exact ⟨_, a.isUnsigned_magnitudeText x, a.floatText_eq x⟩
  · intro i
    exact ⟨_, Text.isUnsigned_digits _, a.integerText_eq i⟩

/-- Minus a half with no places shows nothing but zero, and keeps its sign. -/
theorem sign_symmetry_half :
    (.ofDecimal false 5 (-1) : Binary64).IsPositive ∧
      (⟨none, { plus := true }, 0, some 0⟩ : Attributes).floatText
          (.neg (.ofDecimal false 5 (-1))) =
        '-' :: (⟨none, {}, 0, some 0⟩ : Attributes).floatText (.ofDecimal false 5 (-1)) ∧
      (⟨none, {}, 0, some 0⟩ : Attributes).floatText (.ofDecimal false 5 (-1)) = ['0'] := by
  have hpositive : (.ofDecimal false 5 (-1) : Binary64).IsPositive := by
    decide +kernel
  exact ⟨hpositive, (sign_symmetry ⟨none, { plus := true }, 0, some 0⟩).1 _ hpositive,
    by decide +kernel⟩

end Attributes

end PercentFormat
