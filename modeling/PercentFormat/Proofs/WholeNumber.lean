import PercentFormat.Proofs.Sign

/-!
# Whole numbers

An integer is shown digit by digit.  A float is shown as the shortest decimal that reads back,
filled up with zeros, and that is a different text in general: beyond `2 ^ 53` it need not be the
digits of the number.  Up to there it is.  A whole number reads back as itself and so does its
decimal on the grid of whole numbers, which is why nothing is left behind the point; and no other
whole number reads back as a small one, which is why the digits in front of it are the right ones.

So `%d` and `%f` show the same text of a float whose fraction is left out or not there.  They part
between `-1` and `0`, where the float keeps its sign and the integer has none.

## Main definitions

* `Value.Holds`: an argument that is an integer, of whichever type

## Main results

* `text_whole`: the text of a whole number is digits
* `text_whole_of_le`: they are its own digits, up to `2 ^ 53`
* `render_decimal_eq_float`: where `%d` and `%f` show the same
-/

namespace PercentFormat

namespace BinaryFormat

variable {F : BinaryFormat}

/-! ## The text of a whole number -/

theorem positional_of_dvd {e places : Nat} (h : 10 ^ places ∣ e) :
    positional e places = Digits.ofNat (e / 10 ^ places) := by
  have hzeros : ∀ c ∈ (List.replicate (places - 1) '0' ++ ['0']).reverse, (c == '0') = true := by
    intro c hc
    rw [List.mem_reverse, List.mem_append] at hc
    rcases hc with hc | hc
    · rw [List.eq_of_mem_replicate hc]
      rfl
    · rw [List.mem_singleton.mp hc]
      rfl
  rw [positional, Nat.mod_eq_zero_of_dvd h, show Digits.ofNat 0 = ['0'] from rfl]
  simp only [List.length_singleton, List.dropWhile_eq_nil_iff.mpr hzeros]
  exact List.append_nil _

/-- The shortest decimal of a whole number is a whole number. -/
theorem ten_pow_dvd_shortest {n : Nat} (h : F.Representable n) (hdvd : 2 ^ F.scale ∣ n) :
    10 ^ F.scale ∣ F.shortest n := by
  obtain ⟨w, rfl⟩ := hdvd
  rcases Nat.eq_zero_or_pos w with rfl | hw
  · have hzero : F.shortest (2 ^ F.scale * 0) = 0 := by
      rw [shortest, Nat.mul_zero, Nat.zero_mul]
      rfl
    rw [hzero]
    exact Nat.dvd_zero _
  · have hexact : 2 ^ F.scale * w * 5 ^ F.scale = w * 10 ^ F.scale := by
      rw [ten_pow]
      ac_rfl
    have hread := readsBack_exact h
    rw [hexact] at hread
    apply dvd_shortest h _ hread
    rw [hexact]
    exact Nat.le_mul_of_pos_left _ hw

end BinaryFormat

namespace Floating

variable {F : BinaryFormat} {n : Nat}

/-- **The text of a whole number is digits**, whatever its size. -/
theorem text_whole (h : F.Representable n) (hdvd : 2 ^ F.scale ∣ n) :
    (finite false n h).text = Digits.ofNat (F.shortest n / 10 ^ F.scale) :=
  BinaryFormat.positional_of_dvd (BinaryFormat.ten_pow_dvd_shortest h hdvd)

/-- **They are its own digits**, as long as whole numbers are magnitudes of the format. -/
theorem text_whole_of_le (hp : 1 < F.precision) (h : F.Representable n) (hdvd : 2 ^ F.scale ∣ n)
    (hn : n ≤ 2 ^ F.precision * 2 ^ F.scale) :
    (finite false n h).text = Digits.ofNat (n / 2 ^ F.scale) := by
  rw [text_whole h hdvd, BinaryFormat.shortest_div_ten_pow hp h hn]

/-! ## The integer of a float -/

theorem toSigned_finite {s : Bool} (h : F.Representable n)
    (hn : ((n / 2 ^ F.scale : Nat) : Int) ≤ signedMax) :
    (finite s n h).toSigned =
      if s then -((n / 2 ^ F.scale : Nat) : Int) else (n / 2 ^ F.scale : Nat) := by
  show clampSigned (if s then -((n / 2 ^ F.scale : Nat) : Int) else (n / 2 ^ F.scale : Nat)) = _
  generalize n / 2 ^ F.scale = w at hn ⊢
  apply clampSigned_eq_self
  · unfold signedMin
    unfold signedMax at hn
    split <;> omega
  · split <;> omega

/-- What is not below zero, or is below it by one or more, has the sign of its integer. -/
theorem isNegative_eq {s : Bool} (h : F.Representable n)
    (hn : ((n / 2 ^ F.scale : Nat) : Int) ≤ signedMax)
    (hs : s = true → n ≠ 0 → 2 ^ F.scale ≤ n) :
    (finite s n h).isNegative = decide ((finite s n h).toSigned < 0) := by
  rw [toSigned_finite h hn]
  cases s with
  | false =>
    rw [if_neg Bool.false_ne_true, decide_eq_false (Int.not_lt.mpr (Int.natCast_nonneg _))]
    rfl
  | true =>
    rw [if_pos rfl]
    rcases Nat.eq_zero_or_pos n with rfl | hpos
    · simp [isNegative]
    · have hne := Nat.ne_of_gt hpos
      have hwhole : 0 < n / 2 ^ F.scale := Nat.div_pos (hs rfl hne) (Nat.two_pow_pos _)
      rw [decide_eq_true (by omega)]
      simpa [isNegative] using hne

theorem text_whole_abs (hp : 1 < F.precision) {s : Bool} (h : F.Representable n)
    (hle : n ≤ 2 ^ F.precision * 2 ^ F.scale) (hn : ((n / 2 ^ F.scale : Nat) : Int) ≤ signedMax) :
    (finite s n h).abs.whole.text = Digits.ofNat (finite s n h).toSigned.natAbs := by
  have hdigits := text_whole_of_le hp h.whole (Nat.dvd_mul_left _ _)
    (Nat.le_trans (Nat.div_mul_le_self _ _) hle)
  rw [Nat.mul_div_cancel _ (Nat.two_pow_pos _)] at hdigits
  rw [abs, whole_finite, hdigits, toSigned_finite h hn]
  congr 1
  generalize n / 2 ^ F.scale = w
  split <;> omega

theorem exists_finite_of_le {x : Floating F} {q : ℚ} {m : Nat} (hx : x.toRat? = some q)
    (hle : |q| ≤ m) (hq : ¬ (-1 < q ∧ q < 0)) :
    ∃ s n h, x = finite s n h ∧ n ≤ m * 2 ^ F.scale ∧ (s = true → n ≠ 0 → 2 ^ F.scale ≤ n) := by
  obtain ⟨s, n, h, rfl, habs, hsign⟩ := exists_finite_of_toRat? hx
  have hS : (0 : ℚ) < 2 ^ F.scale := by positivity
  refine ⟨s, n, h, rfl, ?_, ?_⟩
  · rw [habs, div_le_iff₀ hS] at hle
    exact_mod_cast hle
  · rintro rfl hne
    have hpos : 0 < |q| := by
      rw [habs]
      positivity
    rw [if_pos rfl] at hsign
    have hone : 1 ≤ |q| := by
      by_contra hlt
      exact hq ⟨by linarith, by linarith⟩
    rw [habs, one_le_div₀ hS] at hone
    exact_mod_cast hone

/-! ## Integers as floats -/

theorem exists_finite_of_int {x : Floating F} {i : Int} (hx : x.toRat? = some (i : ℚ)) :
    ∃ s h, x = finite s (i.natAbs * 2 ^ F.scale) h ∧ i = if s then -|i| else |i| := by
  obtain ⟨s, n, h, rfl, habs, hsign⟩ := exists_finite_of_toRat? hx
  have hunits : n = i.natAbs * 2 ^ F.scale := by
    have hcast : |(i : ℚ)| = (i.natAbs : ℕ) := by
      rw [← Int.cast_abs, Int.abs_eq_natAbs, Int.cast_natCast]
    rw [eq_div_iff (by positivity), hcast] at habs
    exact_mod_cast habs.symm
  subst hunits
  refine ⟨s, h, rfl, ?_⟩
  cases s <;> exact_mod_cast hsign

theorem toSigned_of_int {x : Floating F} {i : Int} (hx : x.toRat? = some (i : ℚ))
    (hi : |i| ≤ signedMax) : x.toSigned = i := by
  obtain ⟨s, h, rfl, hsign⟩ := exists_finite_of_int hx
  rw [Int.abs_eq_natAbs] at hi hsign
  have hwhole : i.natAbs * 2 ^ F.scale / 2 ^ F.scale = i.natAbs :=
    Nat.mul_div_cancel _ (Nat.two_pow_pos _)
  rw [toSigned_finite h (by rwa [hwhole]), hwhole, ← hsign]

theorem isZero_fraction_of_int {x : Floating F} {i : Int} (hx : x.toRat? = some (i : ℚ)) :
    x.abs.fraction.isZero = true := by
  obtain ⟨s, h, rfl, -⟩ := exists_finite_of_int hx
  rw [abs, fraction_finite]
  simp [isZero]

theorem toRat?_ofInt (hlimit : F.precision + F.scale < F.limit) {i : Int}
    (hi : i.natAbs ≤ 2 ^ F.precision) : (ofInt i : Floating F).toRat? = some (i : ℚ) := by
  have h : F.Representable (i.natAbs * 2 ^ F.scale) := by
    refine ⟨?_, BinaryFormat.spacing_dvd_whole hi⟩
    calc i.natAbs * 2 ^ F.scale ≤ 2 ^ F.precision * 2 ^ F.scale := Nat.mul_le_mul_right _ hi
      _ = 2 ^ (F.precision + F.scale) := (Nat.pow_add _ _ _).symm
      _ < 2 ^ F.limit := Nat.pow_lt_pow_right (by decide) hlimit
  have hvalue : ((i.natAbs * 2 ^ F.scale : ℕ) : ℚ) / 2 ^ F.scale = |(i : ℚ)| := by
    rw [← Int.cast_abs, Int.abs_eq_natAbs, Int.cast_natCast]
    push_cast
    field_simp
  rw [ofInt_of_representable h, toRat?, hvalue]
  by_cases hneg : i < 0
  · have : (i : ℚ) < 0 := by exact_mod_cast hneg
    simp [hneg, abs_of_neg this]
  · have : (0 : ℚ) ≤ i := by exact_mod_cast Int.not_lt.mp hneg
    simp [hneg, abs_of_nonneg this]

end Floating

/-! ## Integers and floats that show the same -/

namespace Attributes

open Floating

variable (a : Attributes)

/-- A float that is cut off at its point shows the integer it is truncated to. -/
theorem integerText_toSigned {x : Binary64} {q : ℚ} (hx : x.toRat? = some q)
    (hle : |q| ≤ 2 ^ (53 : Nat)) (hq : ¬ (-1 < q ∧ q < 0)) :
    a.integerText x.toSigned = ({ a with precision := some 0 } : Attributes).floatText x := by
  have hle' : |q| ≤ (2 ^ BinaryFormat.binary64.precision : Nat) := by exact_mod_cast hle
  obtain ⟨s, n, h, rfl, hn, hone⟩ := exists_finite_of_le hx hle' hq
  have hwhole : n / 2 ^ BinaryFormat.binary64.scale ≤ 2 ^ BinaryFormat.binary64.precision :=
    Nat.div_le_of_le_mul (by rwa [Nat.mul_comm])
  have hsigned : ((n / 2 ^ BinaryFormat.binary64.scale : Nat) : Int) ≤ signedMax :=
    le_trans (Int.ofNat_le.mpr hwhole) (by decide)
  rw [integerText_eq, floatText_eq, isNegative_eq h hsigned hone, magnitudeText_cut _ rfl rfl,
    text_whole_abs (by decide) h hn hsigned]
  rfl

theorem floatText_whole {x : Binary64} {i : Int} (hx : x.toRat? = some (i : ℚ)) :
    ({ a with precision := none } : Attributes).floatText x =
      ({ a with precision := some 0 } : Attributes).floatText x := by
  have hfinite : x.abs.isFinite = true := by
    rw [isFinite_abs, isFinite_iff]
    exact ⟨_, hx⟩
  rw [floatText_eq, floatText_eq, magnitudeText_whole _ hfinite rfl (isZero_fraction_of_int hx),
    magnitudeText_cut _ hfinite rfl]
  rfl

end Attributes

namespace Value

/-- The argument is the integer `n`, held as an integer of either signedness or as a float. -/
inductive Holds (n : Int) : Value → Prop
  | int {i : Int64} (h : i.toInt = n) : Holds n (.int i)
  | uint {u : UInt64} (h : (u.toNat : Int) = n) : Holds n (.uint u)
  | float {x : Binary64} (h : x.toRat? = some (n : ℚ)) : Holds n (.float x)

variable {n : Int} {v : Value}

theorem Holds.toInteger_eq (h : v.Holds n) (hn : |n| ≤ 2 ^ (53 : Nat)) : v.toInteger = pure n := by
  cases h with
  | int h => rw [toInteger, h]
  | uint h => rw [toInteger, h]
  | float h => rw [toInteger, Floating.toSigned_of_int h (le_trans hn (by decide))]

theorem Holds.exists_toFloat (h : v.Holds n) (hn : |n| ≤ 2 ^ (53 : Nat)) :
    ∃ x : Binary64, v.toFloat = pure x ∧ x.toRat? = some (n : ℚ) := by
  have hsmall : n.natAbs ≤ 2 ^ BinaryFormat.binary64.precision := by
    rw [Int.abs_eq_natAbs] at hn
    exact_mod_cast hn
  have hvalue := Floating.toRat?_ofInt (F := BinaryFormat.binary64) (by decide) hsmall
  cases h with
  | int h =>
    subst h
    exact ⟨_, rfl, hvalue⟩
  | uint h =>
    subst h
    exact ⟨_, rfl, hvalue⟩
  | float h => exact ⟨_, rfl, h⟩

end Value

namespace Conversion

variable (a : Attributes) (nilToken : String)

theorem render_eq_of_core_eq {p : Option Nat} {v w : Value}
    (h : decimal.core a nilToken v = float.core { a with precision := p } nilToken w) :
    decimal.render a nilToken v = float.render { a with precision := p } nilToken w := by
  rw [render, render, h]
  rfl

/-- **`%d` and `%f` show the same** under the same flags and width.

* A float of at most `2 ^ 53` that is not strictly between `-1` and `0` is shown by `%d` as it is by
  `%f` with no places, and as it is by `%f` without a precision if it is whole.
* An integer of at most `2 ^ 53` is shown by `%d` as it is by `%f` without a precision, and in
  whichever type it is held to either of them. -/
theorem render_decimal_eq_float :
    (∀ (x : Binary64) (q : ℚ), x.toRat? = some q → |q| ≤ 2 ^ (53 : Nat) → ¬ (-1 < q ∧ q < 0) →
      decimal.render a nilToken (.float x) =
          float.render { a with precision := some 0 } nilToken (.float x) ∧
        ∀ i : Int, q = i → decimal.render a nilToken (.float x) =
          float.render { a with precision := none } nilToken (.float x)) ∧
    ∀ (n : Int) (v w : Value), |n| ≤ 2 ^ (53 : Nat) → v.Holds n → w.Holds n →
      decimal.render a nilToken v = float.render { a with precision := none } nilToken w := by
  have hint : ∀ (n : Int) (v w : Value), |n| ≤ 2 ^ (53 : Nat) → v.Holds n → w.Holds n →
      decimal.render a nilToken v = float.render { a with precision := none } nilToken w := by
    intro n v w hn hv hw
    obtain ⟨x, hfloat, hx⟩ := hw.exists_toFloat hn
    have hwhole : ¬ (-1 < (n : ℚ) ∧ (n : ℚ) < 0) := by
      rintro ⟨hlow, hhigh⟩
      have hlow' : -1 < n := by exact_mod_cast hlow
      have hhigh' : n < 0 := by exact_mod_cast hhigh
      omega
    have htext := a.integerText_toSigned hx (by exact_mod_cast hn) hwhole
    rw [Floating.toSigned_of_int hx (le_trans hn (by decide)), ← a.floatText_whole hx] at htext
    apply render_eq_of_core_eq
    rw [core, core, hv.toInteger_eq hn, hfloat, map_pure, map_pure, htext]
  refine ⟨?_, hint⟩
  intro x q hx hle hq
  refine ⟨?_, ?_⟩
  · apply render_eq_of_core_eq
    rw [core, core, Value.toInteger, Value.toFloat, map_pure, map_pure,
      a.integerText_toSigned hx hle hq]
  · rintro i rfl
    exact hint i _ _ (by exact_mod_cast hle) (.float hx) (.float hx)

/-- Minus one and a half, which loses its half, and `-2 ^ 53`, held in two types. -/
theorem render_decimal_eq_float_below_zero :
    (decimal.render ⟨none, { plus := true, zero := true }, 6, none⟩ "(nil)"
          (.float (.ofDecimal true 15 (-1))) =
        float.render ⟨none, { plus := true, zero := true }, 6, some 0⟩ "(nil)"
          (.float (.ofDecimal true 15 (-1)))) ∧
      (Value.Holds (-9007199254740992) (.int (-9007199254740992)) ∧
        Value.Holds (-9007199254740992) (.float (.ofDecimal true 9007199254740992 0)) ∧
        decimal.render {} "(nil)" (.int (-9007199254740992)) =
          float.render {} "(nil)" (.float (.ofDecimal true 9007199254740992 0))) := by
  have hvalue : (.ofDecimal true 15 (-1) : Binary64).toRat? = some (-3 / 2) := by decide +kernel
  have hint : Value.Holds (-9007199254740992) (.int (-9007199254740992)) := .int (by decide)
  have hfloat : Value.Holds (-9007199254740992) (.float (.ofDecimal true 9007199254740992 0)) :=
    .float (by decide +kernel)
  refine ⟨?_, hint, hfloat, ?_⟩
  · have hshown := render_decimal_eq_float ⟨none, { plus := true, zero := true }, 6, none⟩ "(nil)"
    exact (hshown.1 _ _ hvalue (by norm_num [abs_of_neg]) (by norm_num)).1
  · exact (render_decimal_eq_float {} "(nil)").2 _ _ _ (by decide) hint hfloat

end Conversion

end PercentFormat
