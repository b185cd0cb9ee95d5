import Mathlib.Data.Nat.Prime.Basic
import PercentFormat.Proofs.Powers
import PercentFormat.Proofs.WholeNumber

/-!
# Decimal places

What is shown behind the point is the fraction times a power of ten, in floating-point arithmetic
and cut to its whole part.  Two roundings come before the cut, that of the power and that of the
product.

The power is exact as long as the format has all powers of ten, up to `10 ^ 22`.  The product is
then rounded once, and the danger in that is a carry: the largest fraction falls short of one by one
part in `2 ^ 53`, the product by as much of the scale, and were it rounded up to the scale there
would be a digit too many behind the point.  It is not.  The product falls short of the scale by
more than half the spacing that it is rounded with, since the scale is larger than the power of two
its binade begins with.

Further on powers of ten are inexact, and from `10 ^ 309` on they are out of range.  A product with
an infinity is one, and what stands behind the point then is a word.

## Main definitions

* `IsTruncation`: how far the digits behind the point can be off
* `Text.IsDecimal`: a decimal numeral

## Main results

* `floatText_truncates`: up to 22 places, digits are cut off and never carried
* `floatText_isDecimal_iff`: which numbers are shown as a numeral, and to how many places
-/

namespace PercentFormat

open BinaryFormat (binary64)

namespace BinaryFormat

variable {F : BinaryFormat} {r : Nat}

/-! ## A scaled fraction stays below the scale -/

/-- What is less than one falls short of it by the spacing of the binade below one. -/
theorem Representable.add_le_one (hp : 0 < F.precision) (hscale : F.precision ≤ F.scale)
    (h : F.Representable r) (hr : r < 2 ^ F.scale) :
    r + 2 ^ (F.scale - F.precision) ≤ 2 ^ F.scale := by
  rcases Nat.lt_or_ge r (2 ^ (F.scale - 1)) with hlt | hge
  · have hgap : 2 ^ (F.scale - F.precision) ≤ 2 ^ (F.scale - 1) :=
      Nat.pow_le_pow_right (by decide) (by omega)
    have hhalf : 2 ^ F.scale = 2 ^ (F.scale - 1) * 2 := by
      rw [← Nat.pow_succ]
      congr 1
      omega
    omega
  · -- One is a multiple of the spacing in the binade below it, so there is room for one more.
    have hne : r ≠ 0 := Nat.ne_of_gt (Nat.lt_of_lt_of_le (Nat.two_pow_pos _) hge)
    have hlow : F.scale - 1 ≤ r.log2 := (Nat.le_log2 hne).mpr hge
    have hhigh : r.log2 < F.scale := (Nat.log2_lt hne).mpr hr
    have hspacing : F.spacing r = 2 ^ (F.scale - F.precision) := by
      rw [spacing]
      congr 1
      omega
    obtain ⟨t, ht⟩ := h.2
    rw [hspacing] at ht
    have hone : 2 ^ F.scale = 2 ^ (F.scale - F.precision) * 2 ^ F.precision := by
      rw [← Nat.pow_add, Nat.sub_add_cancel hscale]
    have ht' : t < 2 ^ F.precision := by
      apply Nat.lt_of_mul_lt_mul_left (a := 2 ^ (F.scale - F.precision))
      rwa [← ht, ← hone]
    calc r + 2 ^ (F.scale - F.precision) = 2 ^ (F.scale - F.precision) * (t + 1) := by
          rw [Nat.mul_succ, ← ht]
      _ ≤ 2 ^ F.scale := by
          rw [hone]
          exact Nat.mul_le_mul_left _ ht'

/-- **A scaled fraction is not rounded up to the scale**, unless the scale is a power of two. -/
theorem Representable.round_mul_lt (hp : 0 < F.precision) (hscale : F.precision ≤ F.scale)
    (h : F.Representable r) (hr : r < 2 ^ F.scale) {b : Nat} (hb : 2 ^ b.log2 < b) :
    F.round (r * b) 1 < b * 2 ^ F.scale := by
  have hspacing : F.spacing (r * b) ≤ 2 ^ b.log2 * (2 * 2 ^ (F.scale - F.precision)) := by
    have hlog : (r * b).log2 ≤ b.log2 + F.scale := by
      rcases Nat.eq_zero_or_pos (r * b) with hzero | hpos
      · simp [hzero]
      · apply Nat.le_of_lt_succ
        rw [Nat.log2_lt (Nat.ne_of_gt hpos)]
        calc r * b < 2 ^ F.scale * 2 ^ (b.log2 + 1) :=
              Nat.mul_lt_mul_of_lt_of_lt hr Nat.lt_log2_self
          _ = 2 ^ (b.log2 + F.scale + 1) := by
              rw [← Nat.pow_add]
              congr 1
              omega
    calc F.spacing (r * b) ≤ 2 ^ (b.log2 + (F.scale - F.precision + 1)) :=
          Nat.pow_le_pow_right (by decide) (by omega)
      _ = 2 ^ b.log2 * (2 * 2 ^ (F.scale - F.precision)) := by
          rw [Nat.pow_add, Nat.pow_succ']
  have hspacing' : F.spacing (r * b) < b * (2 * 2 ^ (F.scale - F.precision)) :=
    Nat.lt_of_le_of_lt hspacing
      (Nat.mul_lt_mul_of_pos_right hb (Nat.mul_pos (by decide) (Nat.two_pow_pos _)))
  have herror := (F.round_error (r * b) Nat.one_pos).1
  have hgap := Nat.mul_le_mul_left b (h.add_le_one hp hscale hr)
  rw [Nat.mul_add, Nat.mul_comm b r] at hgap
  rw [Nat.div_one, Nat.one_mul, Nat.mul_one] at herror
  rw [Nat.mul_left_comm] at hspacing'
  omega

theorem two_pow_log2_lt_ten_pow {places : Nat} (h : 1 ≤ places) :
    2 ^ (10 ^ places).log2 < 10 ^ places := by
  have hle : 2 ^ (10 ^ places).log2 ≤ 10 ^ places :=
    Nat.log2_self_le (Nat.ne_of_gt (Nat.pow_pos (by decide)))
  refine Nat.lt_of_le_of_ne hle ?_
  intro heq
  have hfive : 5 ∣ 2 ^ (10 ^ places).log2 := by
    rw [heq]
    exact Nat.dvd_trans (by decide : 5 ∣ 10) (dvd_pow_self 10 (by omega))
  exact absurd (Nat.prime_five.dvd_of_dvd_pow hfive) (by decide)

/-! ## The whole part of a rounded value -/

/-- The whole part of a rounded value is that of the value, up to the error of the rounding. -/
theorem round_div_bounds (hp : 0 < F.precision) (n : Nat) :
    (n / 2 ^ F.scale * (1 - F.roundoff) - 1 : ℚ) < (F.round n 1 / 2 ^ F.scale : Nat) ∧
      ((F.round n 1 / 2 ^ F.scale : Nat) : ℚ) ≤ n / 2 ^ F.scale * (1 + F.roundoff) := by
  have hS : (0 : ℚ) < 2 ^ F.scale := by positivity
  have herror := abs_le.mp (abs_round_sub_le hp Nat.one_pos (.inl (Nat.one_dvd n)))
  rw [Nat.cast_one, div_one] at herror
  have hlow := Nat.div_mul_le_self (F.round n 1) (2 ^ F.scale)
  have hhigh := Nat.lt_div_mul_add (a := F.round n 1) (Nat.two_pow_pos F.scale)
  generalize F.round n 1 / 2 ^ F.scale = k at hlow hhigh ⊢
  have hlow' : (k * 2 ^ F.scale : ℚ) ≤ F.round n 1 := by exact_mod_cast hlow
  have hhigh' : (F.round n 1 : ℚ) < k * 2 ^ F.scale + 2 ^ F.scale := by exact_mod_cast hhigh
  refine ⟨?_, ?_⟩
  · rw [sub_lt_iff_lt_add, div_mul_eq_mul_div, div_lt_iff₀ hS]
    linarith
  · rw [div_mul_eq_mul_div, le_div_iff₀ hS]
    linarith

/-- A value is not rounded below its whole part, as long as whole numbers are magnitudes of the
format. -/
theorem floor_le_round_div {n : Nat} (h : (n / 2 ^ F.scale : ℚ) < 2 ^ F.precision) :
    ⌊(n / 2 ^ F.scale : ℚ)⌋ ≤ (F.round n 1 / 2 ^ F.scale : Nat) := by
  have hlt : n < 2 ^ F.precision * 2 ^ F.scale := by
    rw [div_lt_iff₀ (by positivity)] at h
    exact_mod_cast h
  have hwhole : n / 2 ^ F.scale ≤ 2 ^ F.precision :=
    Nat.div_le_of_le_mul (by rw [Nat.mul_comm]; exact hlt.le)
  have hfloor : ⌊(n / 2 ^ F.scale : ℚ)⌋ = (n / 2 ^ F.scale : Nat) := by
    exact_mod_cast Rat.floor_natCast_div_natCast n (2 ^ F.scale)
  rw [hfloor]
  apply Int.ofNat_le.mpr
  rw [Nat.le_div_iff_mul_le (Nat.two_pow_pos _)]
  apply F.le_round (spacing_dvd_whole hwhole) Nat.one_pos
  rw [Nat.mul_one]
  exact Nat.div_mul_le_self _ _

end BinaryFormat

/-! ## The digits behind the point -/

namespace Floating

variable {F : BinaryFormat} {r : Nat}

theorem finite_mul_whole (h : F.Representable r) {w : Nat}
    (hw : F.Representable (w * 2 ^ F.scale)) :
    (finite false r h).mul (finite false (w * 2 ^ F.scale) hw) =
      ofUnits false (F.round (r * w) 1) := by
  rw [mul, ← Nat.mul_assoc, ← F.round_mul_right (r * w) 1 (Nat.two_pow_pos F.scale), Nat.one_mul]
  rfl

theorem exists_finite_mul (h : F.Representable r) (hr : r < 2 ^ F.scale) {m : Nat}
    (hm : F.Representable m) :
    ∃ n hn, (finite false r h).mul (finite false m hm) = finite false n hn := by
  have hle : F.round (r * m) (2 ^ F.scale) ≤ m := by
    apply F.round_le hm.2 (Nat.two_pow_pos _)
    rw [Nat.mul_comm]
    exact Nat.mul_le_mul_left m hr.le
  have hn := F.representable_round (Nat.two_pow_pos F.scale) (Nat.lt_of_le_of_lt hle hm.1)
  exact ⟨_, hn, ofUnits_of_representable _ hn⟩

end Floating

namespace Attributes

open Floating

section

variable {r places : Nat} (h : binary64.Representable r)

theorem fractionText_zero (h : binary64.Representable 0) :
    fractionText (finite false 0 h) places = Digits.ofNat 0 := rfl

theorem fractionText_of_ne_zero (hr : r ≠ 0) :
    fractionText (finite false r h) places =
      ((finite false r h).mul ((ofInt 10).power (min places placesMax))).wholeText := by
  have hzero : (finite false r h).isZero = false := by simpa [isZero] using hr
  rw [fractionText, hzero]
  rfl

/-- **Up to 22 places there is one rounding**, that of the product. -/
theorem fractionText_eq (hr : r < 2 ^ binary64.scale) (hpos : 1 ≤ places)
    (hle : places ≤ 22) :
    fractionText (finite false r h) places = Digits.ofNat
      (binary64.round (r * 10 ^ places) 1 / 2 ^ binary64.scale) := by
  rcases Nat.eq_zero_or_pos r with rfl | hne
  · rw [fractionText_zero, Nat.zero_mul, BinaryFormat.round_eq_zero _ (by decide), Nat.zero_div]
  · have hlt := h.round_mul_lt (by decide) (by decide) hr
      (BinaryFormat.two_pow_log2_lt_ten_pow hpos)
    have hproduct := binary64.representable_round Nat.one_pos
      (Nat.lt_trans hlt (representable_ten_pow hle).1)
    have hmax : places ≤ placesMax := Nat.le_trans hle (by decide)
    rw [fractionText_of_ne_zero h (Nat.ne_of_gt hne), Nat.min_eq_left hmax, power_ten hle,
      finite_mul_whole, ofUnits_of_representable _ hproduct]
    rfl

/-- **Up to 308 places there are digits**: neither the power nor the product is out of range. -/
theorem exists_fractionText (hr : r < 2 ^ binary64.scale) (hle : places ≤ 308) :
    ∃ k, fractionText (finite false r h) places = Digits.ofNat k := by
  rcases Nat.eq_zero_or_pos r with rfl | hne
  · exact ⟨0, fractionText_zero h⟩
  · obtain ⟨m, hm, hpower⟩ := power_ten_of_le hle
    obtain ⟨n, hn, hproduct⟩ := exists_finite_mul h hr hm
    have hmax : places ≤ placesMax := Nat.le_trans hle (by decide)
    rw [fractionText_of_ne_zero h (Nat.ne_of_gt hne), Nat.min_eq_left hmax, hpower, hproduct]
    exact ⟨_, rfl⟩

/-- **From there on there is a word**, unless the fraction is zero. -/
theorem fractionText_overflow (hr : r ≠ 0) (hlt : 308 < places) :
    fractionText (finite false r h) places = "inf".toList := by
  have hmin : 308 < min places placesMax := Nat.lt_min.mpr ⟨hlt, by decide⟩
  rw [fractionText_of_ne_zero h hr, power_ten_of_lt hmin, mul, if_neg hr]
  rfl

end

variable (a : Attributes)

theorem sign_mem (negative : Bool) : a.sign negative ∈ [[], ['-'], ['+'], [' ']] := by
  unfold sign numberSign
  split
  · simp
  · split
    · simp
    · split <;> simp

/-- **To a number of places, a float is shown in three parts**: its sign, the digits of its whole
part, and what is shown of its fraction. -/
theorem exists_floatText_places {x : Binary64} {q : ℚ} {places : Nat} (hx : x.toRat? = some q)
    (hp : a.precision = some places) (hpos : 1 ≤ places) :
    ∃ (w r : Nat) (h : binary64.Representable r),
      r < 2 ^ binary64.scale ∧
      Int.fract |q| = r / 2 ^ binary64.scale ∧
      a.floatText x = a.sign x.isNegative ++
        (Digits.ofNat w ++ '.' :: fractionText (finite false r h) places) := by
  obtain ⟨s, n, h, rfl, habs, -⟩ := exists_finite_of_toRat? hx
  obtain ⟨w, hwhole⟩ : ∃ w, (finite s n h).abs.whole.text = Digits.ofNat w := by
    rw [Floating.abs, whole_finite]
    exact ⟨_, text_whole h.whole (Nat.dvd_mul_left _ _)⟩
  have hfraction : (finite s n h).abs.fraction =
      finite false (n % 2 ^ binary64.scale) h.fraction := by
    rw [Floating.abs, fraction_finite]
  have hfract : Int.fract |q| = (n % 2 ^ binary64.scale : Nat) /
      2 ^ binary64.scale := by
    have hunit : ((2 ^ binary64.scale : Nat) : ℚ) = 2 ^ binary64.scale :=
      Nat.cast_pow 2 _
    rw [habs, ← hunit]
    exact Int.fract_div_natCast_eq_div_natCast_mod
  refine ⟨w, _, h.fraction, Nat.mod_lt _ (Nat.two_pow_pos _), hfract, ?_⟩
  obtain ⟨places, rfl⟩ := Nat.exists_eq_succ_of_ne_zero (Nat.ne_of_gt hpos)
  rw [floatText_eq, a.magnitudeText_places rfl hp, hwhole, hfraction]

end Attributes

/-! ## Digits that are cut off -/

/-- A run of digits, and at least one. -/
structure Text.IsDigits (s : List Char) : Prop where
  ne_nil : s ≠ []
  isDigit : ∀ d ∈ s, d.isDigit = true

theorem Text.isDigits_ofNat (n : Nat) : IsDigits (Digits.ofNat n) :=
  ⟨Digits.ofNat_ne_nil n, fun _ => Digits.isDigit_of_mem_ofNat⟩

theorem Text.IsDigits.point_not_mem {s : List Char} (h : IsDigits s) : '.' ∉ s := by
  intro hmem
  cases h.isDigit _ hmem

/-- The digits `k` behind the point are what is left of the exact value `X` when it is cut to its
whole part, up to one rounding.  As long as whole numbers have room in the format, that is `⌊X⌋`,
and the next whole number only where `X` is so close to it that the rounding reaches it. -/
structure IsTruncation (X : ℚ) (k : Nat) : Prop where
  lower : X * (1 - 1 / 2 ^ (53 : Nat)) - 1 < k
  upper : k ≤ X * (1 + 1 / 2 ^ (53 : Nat))
  floor_le : X < 2 ^ (53 : Nat) → ⌊X⌋ ≤ k
  eq_floor : X < 2 ^ (53 : Nat) →
    k = ⌊X⌋ ∨ k = ⌊X⌋ + 1 ∧ ⌊X⌋ + 1 - X ≤ X * (1 / 2 ^ (53 : Nat))

/-- Of whole numbers that are not below the floor, only the next one can be reached by a rounding.
-/
theorem eq_floor_or_of_le {X u : ℚ} {k : ℤ} (hu : X * u < 1) (hlow : ⌊X⌋ ≤ k)
    (hhigh : k ≤ X * (1 + u)) : k = ⌊X⌋ ∨ k = ⌊X⌋ + 1 ∧ ⌊X⌋ + 1 - X ≤ X * u := by
  have hfloor := Int.lt_floor_add_one X
  have hlt : k < ⌊X⌋ + 2 := by
    have : (k : ℚ) < ⌊X⌋ + 2 := by linarith
    exact_mod_cast this
  rcases lt_or_ge ⌊X⌋ k with hgt | hle
  · obtain rfl : k = ⌊X⌋ + 1 := by omega
    refine .inr ⟨rfl, ?_⟩
    push_cast at hhigh
    linarith
  · exact .inl (by omega)

/-- A value that is rounded once and then cut to its whole part. -/
theorem isTruncation_round_div (n : Nat) :
    IsTruncation (n / 2 ^ binary64.scale)
      (binary64.round n 1 / 2 ^ binary64.scale : Nat) := by
  obtain ⟨hlower, hupper⟩ := BinaryFormat.round_div_bounds (F := binary64) (by decide) n
  have hfloor := BinaryFormat.floor_le_round_div (F := binary64) (n := n)
  generalize binary64.round n 1 / 2 ^ binary64.scale = k at *
  generalize (n / 2 ^ binary64.scale : ℚ) = X at *
  refine ⟨hlower, hupper, hfloor, ?_⟩
  intro hX
  refine eq_floor_or_of_le ?_ (hfloor hX) ?_
  · rw [mul_one_div, div_lt_one (pow_pos two_pos _)]
    exact hX
  · exact_mod_cast hupper

namespace Attributes

variable (a : Attributes)

open Floating

theorem point_not_mem_sign (negative : Bool) : '.' ∉ a.sign negative := by
  have hsign := a.sign_mem negative
  simp only [List.mem_cons, List.not_mem_nil, or_false] at hsign
  rcases hsign with h | h | h | h <;> rw [h] <;> decide

/-- **To 22 places and fewer, digits are cut off and never carried.**  There are no more digits
behind the point than there are places, and the number they stand for is the fraction times the
power of ten, cut to its whole part up to one rounding. -/
theorem floatText_truncates {x : Binary64} {q : ℚ} {places : Nat} (hx : x.toRat? = some q)
    (hp : a.precision = some places) (hpos : 1 ≤ places) (hle : places ≤ 22) :
    ∃ front digits, a.floatText x = front ++ '.' :: digits ∧ '.' ∉ front ∧
      Text.IsDigits digits ∧ digits.length ≤ places ∧ Digits.value digits < 10 ^ places ∧
      IsTruncation (Int.fract |q| * 10 ^ places) (Digits.value digits) := by
  obtain ⟨w, r, h, hr, hfract, htext⟩ := a.exists_floatText_places hx hp hpos
  have hcarry := h.round_mul_lt (by decide) (by decide) hr
    (BinaryFormat.two_pow_log2_lt_ten_pow hpos)
  have hlt : binary64.round (r * 10 ^ places) 1 / 2 ^ binary64.scale <
      10 ^ places :=
    (Nat.div_lt_iff_lt_mul (Nat.two_pow_pos _)).mpr hcarry
  have hvalue : Int.fract |q| * 10 ^ places =
      ((r * 10 ^ places : Nat) : ℚ) / 2 ^ binary64.scale := by
    rw [hfract, div_mul_eq_mul_div, Nat.cast_mul, Nat.cast_pow]
    rfl
  rw [fractionText_eq h hr hpos hle, ← List.append_assoc] at htext
  refine ⟨_, _, htext, ?_, Text.isDigits_ofNat _, ?_, ?_, ?_⟩
  · rw [List.mem_append]
    rintro (hmem | hmem)
    · exact a.point_not_mem_sign _ hmem
    · exact (Text.isDigits_ofNat w).point_not_mem hmem
  · exact (Nat.length_toDigits_le_iff (by decide) hpos).mpr hlt
  · rwa [Digits.value_ofNat]
  · rw [Digits.value_ofNat, hvalue]
    exact isTruncation_round_div _

/-- The largest number below one, to one place. -/
theorem floatText_truncates_below_one :
    (.ofDecimal false 99999999999999988898 (-20) : Binary64).toRat? =
        some (1 - 1 / 2 ^ (53 : Nat)) ∧
      (∃ front digits, (⟨none, {}, 0, some 1⟩ : Attributes).floatText
            (.ofDecimal false 99999999999999988898 (-20)) = front ++ '.' :: digits ∧
          '.' ∉ front ∧ Text.IsDigits digits ∧ digits.length ≤ 1 ∧ Digits.value digits < 10 ^ 1 ∧
          IsTruncation (Int.fract |1 - 1 / 2 ^ (53 : Nat)| * 10 ^ 1) (Digits.value digits)) ∧
      (⟨none, {}, 0, some 1⟩ : Attributes).floatText (.ofDecimal false 99999999999999988898 (-20)) =
        "0.9".toList := by
  have hx : (.ofDecimal false 99999999999999988898 (-20) : Binary64).toRat? =
      some (1 - 1 / 2 ^ (53 : Nat)) := by
    decide +kernel
  exact ⟨hx, floatText_truncates ⟨none, {}, 0, some 1⟩ hx rfl (by decide) (by decide),
    by decide +kernel⟩

end Attributes

/-! ## Decimal numerals -/

namespace Text

/-- A decimal numeral: no more than one character that is a sign or stands in place of one, digits,
a point, and digits. -/
inductive IsDecimal : List Char → Prop
  | mk {sign whole fraction : List Char} (hsign : sign ∈ [[], ['-'], ['+'], [' ']])
      (hwhole : IsDigits whole) (hfraction : IsDigits fraction) :
      IsDecimal (sign ++ (whole ++ '.' :: fraction))

theorem IsDecimal.isDigit_getLast? {s : List Char} (h : IsDecimal s) :
    ∃ d, s.getLast? = some d ∧ d.isDigit = true := by
  obtain @⟨sign, whole, fraction, -, -, hne, hdigits⟩ := h
  refine ⟨fraction.getLast hne, ?_, hdigits _ (List.getLast_mem hne)⟩
  rw [List.getLast?_append_of_ne_nil _ (by simp), List.getLast?_append_of_ne_nil _ (by simp),
    List.getLast?_cons_of_ne_nil hne, List.getLast?_eq_getLast_of_ne_nil hne]

end Text

namespace Attributes

variable (a : Attributes)

/-- **A number is shown as a decimal numeral** to any number of places if it is whole, and to no
more than 308 if it is not.  To more than that, every number that is not whole shows a word behind
the point. -/
theorem floatText_isDecimal_iff {x : Binary64} {q : ℚ} {places : Nat} (hx : x.toRat? = some q)
    (hp : a.precision = some places) (hpos : 1 ≤ places) :
    (Text.IsDecimal (a.floatText x) ↔ Int.fract |q| = 0 ∨ places ≤ 308) ∧
      (Text.IsDecimal (a.floatText x) ∨
        ∃ w, a.floatText x = a.sign x.isNegative ++ (Digits.ofNat w ++ ".inf".toList)) := by
  obtain ⟨w, r, h, hr, hfract, htext⟩ := a.exists_floatText_places hx hp hpos
  have hzero : Int.fract |q| = 0 ↔ r = 0 := by
    rw [hfract, div_eq_zero_iff, or_iff_left (ne_of_gt (pow_pos two_pos _)), Nat.cast_eq_zero]
  rw [hzero]
  have hdecimal : ∀ k, fractionText (.finite false r h) places = Digits.ofNat k →
      Text.IsDecimal (a.floatText x) := by
    intro k hk
    rw [htext, hk]
    exact ⟨a.sign_mem _, Text.isDigits_ofNat w, Text.isDigits_ofNat k⟩
  by_cases hshown : r = 0 ∨ places ≤ 308
  · have hnumeral : Text.IsDecimal (a.floatText x) := by
      rcases hshown with rfl | hle
      · exact hdecimal 0 (fractionText_zero h)
      · obtain ⟨k, hk⟩ := exists_fractionText h hr hle
        exact hdecimal k hk
    exact ⟨iff_of_true hnumeral hshown, .inl hnumeral⟩
  · obtain ⟨hne, hlt⟩ := not_or.mp hshown
    rw [fractionText_overflow h hne (Nat.lt_of_not_le hlt)] at htext
    refine ⟨iff_of_false ?_ hshown, .inr ⟨w, htext⟩⟩
    intro hnumeral
    obtain ⟨d, hlast, hdigit⟩ := hnumeral.isDigit_getLast?
    rw [htext, List.getLast?_append_of_ne_nil _ (by simp),
      List.getLast?_append_of_ne_nil _ (by simp)] at hlast
    obtain rfl := Option.some.inj hlast
    cases hdigit

/-- A half has digits to 308 places, and none to one more. -/
theorem floatText_isDecimal_iff_half :
    (.ofDecimal false 5 (-1) : Binary64).toRat? = some (1 / 2) ∧
      Text.IsDecimal ((⟨none, {}, 0, some 308⟩ : Attributes).floatText (.ofDecimal false 5 (-1))) ∧
      ¬ Text.IsDecimal
        ((⟨none, {}, 0, some 309⟩ : Attributes).floatText (.ofDecimal false 5 (-1))) ∧
      (⟨none, {}, 0, some 309⟩ : Attributes).floatText (.ofDecimal false 5 (-1)) =
        "0.inf".toList := by
  have hx : (.ofDecimal false 5 (-1) : Binary64).toRat? = some (1 / 2) := by
    decide +kernel
  have hfract : Int.fract |(1 / 2 : ℚ)| ≠ 0 := by
    decide +kernel
  refine ⟨hx, ?_, ?_, ?_⟩
  · exact (floatText_isDecimal_iff ⟨none, {}, 0, some 308⟩ hx rfl (by decide)).1.mpr
      (.inr (by decide))
  · rw [(floatText_isDecimal_iff ⟨none, {}, 0, some 309⟩ hx rfl (by decide)).1]
    exact not_or.mpr ⟨hfract, by decide⟩
  · decide +kernel

end Attributes

end PercentFormat
