import Mathlib.Algebra.Order.Field.Rat
import Mathlib.Algebra.Order.Group.Abs
import Mathlib.Tactic.FieldSimp
import Mathlib.Tactic.Linarith
import Mathlib.Tactic.Positivity
import PercentFormat.Proofs.Rounding

/-!
# The error of rounding

A quotient is rounded to the nearest multiple of its spacing, so the error is at most half a
spacing.  Relative to the quotient that is one part in `2 ^ precision`, provided that the quotient
has all the bits of the format.  A smaller one has fewer bits than that and a spacing of one unit;
what it loses can be all of it, unless it is a whole number of units, and then it loses nothing.

## Main definitions

* `BinaryFormat.roundoff F`: the relative error of a rounding

## Main results

* `representable_round`: what is rounded is a magnitude of the format, unless it is out of range
* `abs_round_sub_le`: the relative error of a rounding
-/

namespace PercentFormat

namespace BinaryFormat

variable (F : BinaryFormat)

/-! ## The spacing at a quotient -/

theorem spacing_eq_one {m : Nat} (h : m < 2 ^ (F.precision - 1)) : F.spacing m = 1 := by
  have hlog : m.log2 ≤ F.precision - 1 := by
    rcases Nat.eq_zero_or_pos m with rfl | hm
    · simp
    · exact Nat.le_of_lt ((Nat.log2_lt (Nat.ne_of_gt hm)).mpr h)
  rw [spacing, Nat.sub_eq_zero_of_le hlog, Nat.pow_zero]

/-- A number that has all the bits of the format is so many times its spacing. -/
theorem two_pow_mul_spacing_le {m : Nat} (h : 2 ^ (F.precision - 1) ≤ m) :
    2 ^ (F.precision - 1) * F.spacing m ≤ m := by
  have hm : m ≠ 0 := Nat.ne_of_gt (Nat.lt_of_lt_of_le (Nat.two_pow_pos _) h)
  have hlog : F.precision - 1 ≤ m.log2 := (Nat.le_log2 hm).mpr h
  calc 2 ^ (F.precision - 1) * F.spacing m = 2 ^ m.log2 := by
        rw [spacing, ← Nat.pow_add, Nat.add_sub_cancel' hlog]
    _ ≤ m := Nat.log2_self_le hm

theorem spacing_round_dvd {n d : Nat} (hd : 0 < d) :
    F.spacing (F.round n d) ∣ F.round n d := by
  have hbinade : n ≤ 2 ^ ((n / d).log2 + 1) * d :=
    Nat.le_of_lt ((Nat.div_lt_iff_lt_mul hd).mp Nat.lt_log2_self)
  rcases Nat.eq_or_lt_of_le (F.round_le (F.spacing_dvd_two_pow _) hd hbinade) with heq | hlt
  · -- The quotient has been rounded up to the power of two that ends its binade.
    rw [heq]
    exact F.spacing_dvd_two_pow _
  · -- It has stayed in its binade, or has fallen below it.
    apply Nat.dvd_trans _ (F.spacing_dvd_round n d)
    apply Nat.pow_dvd_pow
    rcases Nat.eq_zero_or_pos (F.round n d) with hzero | hpos
    · simp [hzero]
    · have hlog := (Nat.log2_lt (Nat.ne_of_gt hpos)).mpr hlt
      omega

/-- **What is rounded is a magnitude of the format**, unless it is out of range. -/
theorem representable_round {n d : Nat} (hd : 0 < d) (h : F.round n d < 2 ^ F.limit) :
    F.Representable (F.round n d) :=
  ⟨h, F.spacing_round_dvd hd⟩

/-! ## Half a spacing -/

theorem nearestEven_error (a : Nat) {b : Nat} (hb : 0 < b) :
    2 * (nearestEven a b * b) ≤ 2 * a + b ∧ 2 * a ≤ 2 * (nearestEven a b * b) + b := by
  have hdiv : a / b * b + a % b = a := Nat.div_add_mod' a b
  have hmod : a % b < b := Nat.mod_lt a hb
  have hsucc : (a / b + 1) * b = a / b * b + b := Nat.succ_mul _ _
  unfold nearestEven
  split
  · omega
  · split
    · omega
    · rcases Nat.mod_two_eq_zero_or_one (a / b) with heven | hodd
      · rw [heven, Nat.add_zero]
        omega
      · rw [hodd]
        omega

theorem round_error (n : Nat) {d : Nat} (hd : 0 < d) :
    2 * (F.round n d * d) ≤ 2 * n + d * F.spacing (n / d) ∧
      2 * n ≤ 2 * (F.round n d * d) + d * F.spacing (n / d) := by
  have hround : F.round n d * d =
      nearestEven n (d * F.spacing (n / d)) * (d * F.spacing (n / d)) := by
    rw [round]
    ac_rfl
  rw [hround]
  exact nearestEven_error n (Nat.mul_pos hd (F.spacing_pos _))

/-! ## Relative error -/

/-- The relative error of a rounding: half a spacing, where the spacing is least against the
number. -/
def roundoff : ℚ := 1 / 2 ^ F.precision

theorem roundoff_pos : 0 < F.roundoff := by
  unfold roundoff
  positivity

theorem roundoff_le_one : F.roundoff ≤ 1 := by
  unfold roundoff
  rw [div_le_one (by positivity)]
  exact one_le_pow₀ (by norm_num)

variable {F}

/-- **The relative error of a rounding**, of a quotient that has all the bits of the format or is a
whole number of units. -/
theorem abs_round_sub_le (hp : 0 < F.precision) {n d : Nat} (hd : 0 < d)
    (h : d ∣ n ∨ 2 ^ (F.precision - 1) ≤ n / d) :
    |(F.round n d : ℚ) - n / d| ≤ n / d * F.roundoff := by
  have hd' : (0 : ℚ) < d := by exact_mod_cast hd
  rcases Nat.lt_or_ge (n / d) (2 ^ (F.precision - 1)) with hlt | hge
  · obtain ⟨m, rfl⟩ := h.resolve_right (Nat.not_le_of_lt hlt)
    have hexact : F.round (d * m) d = m := by
      rw [Nat.mul_div_cancel_left m hd] at hlt
      rw [round, Nat.mul_div_cancel_left m hd, F.spacing_eq_one hlt, Nat.mul_one, Nat.mul_one,
        Nat.mul_comm, nearestEven_mul_left m hd]
    have hquotient : ((d * m : ℕ) : ℚ) / d = m := by
      rw [Nat.cast_mul]
      field_simp
    rw [hexact, hquotient, sub_self, abs_zero]
    have := F.roundoff_pos
    positivity
  · obtain ⟨hupper, hlower⟩ := F.round_error n hd
    have hspacing : 2 ^ (F.precision - 1) * F.spacing (n / d) * d ≤ n :=
      (Nat.le_div_iff_mul_le hd).mp (F.two_pow_mul_spacing_le hge)
    generalize F.spacing (n / d) = s at hupper hlower hspacing
    have hpow : (2 : ℚ) ^ F.precision = 2 * 2 ^ (F.precision - 1) := by
      rw [← pow_succ', Nat.sub_add_cancel hp]
    have hn : (n : ℚ) = n / d * d := by field_simp
    have hspacing' : (2 : ℚ) ^ (F.precision - 1) * s * d ≤ n := by exact_mod_cast hspacing
    have hupper' : (2 : ℚ) * (F.round n d * d) ≤ 2 * n + d * s := by exact_mod_cast hupper
    have hlower' : (2 : ℚ) * n ≤ 2 * (F.round n d * d) + d * s := by exact_mod_cast hlower
    generalize (n : ℚ) / d = x at *
    rw [hn] at hspacing' hupper' hlower'
    have hhalf : (s : ℚ) / 2 ≤ x * F.roundoff := by
      have hle : (2 : ℚ) ^ (F.precision - 1) * s ≤ x := le_of_mul_le_mul_right hspacing' hd'
      rw [roundoff, hpow, mul_one_div, le_div_iff₀ (by positivity)]
      linarith
    rw [abs_sub_le_iff]
    refine ⟨?_, ?_⟩
    · have : (F.round n d : ℚ) ≤ x + s / 2 := by
        apply le_of_mul_le_mul_right _ hd'
        linarith
      linarith
    · have : x ≤ (F.round n d : ℚ) + s / 2 := by
        apply le_of_mul_le_mul_right _ hd'
        linarith
      linarith

end BinaryFormat

end PercentFormat
