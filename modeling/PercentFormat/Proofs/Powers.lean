import PercentFormat.Proofs.ExactValue
import PercentFormat.Proofs.RoundingError

/-!
# Powers by repeated squaring

The accumulator and the base of repeated squaring each stand for a power of the number that is
raised, and every product adds the exponents of its factors.  What all the products keep, in terms
of those exponents, is therefore a property of the whole power, and it is shown once, for any
property.  It is used twice here: powers that the format has are computed without an error, and
every other one is off by no more roundings than its exponent says.

The second is what decides when a power of ten overflows.  The squares that are formed on the way
can overflow too, but an infinity is only ever reached from a product that is out of range, so it is
a bound on the power as well.

## Main definitions

* `Floating.Approximates`: a number that so many roundings can make of an exact value

## Main results

* `powerFrom_induction`: what the products keep, the power has
* `power_ofInt`: powers that the format has are exact
* `approximates_power`: any other power is off by as many roundings as its exponent says
* `power_ten_of_le`, `power_ten_of_lt`: the powers of ten that are in range
-/

namespace PercentFormat

open BinaryFormat (binary64)

namespace Floating

variable {F : BinaryFormat}

/-- **What the products keep, the power has.**  The accumulator stands for the exponent `i` and the
base for `j`; together with the digits of the exponent that are left they make up `total`, and no
product goes beyond it. -/
theorem powerFrom_induction {A B : Floating F → Nat → Prop} {total : Nat}
    (hmul : ∀ x y i j, A x i → B y j → i + j ≤ total → A (x.mul y) (i + j))
    (hsquare : ∀ y j, B y j → j + j ≤ total → B (y.mul y) (j + j))
    (n : Nat) {x y : Floating F} {i j : Nat} (hx : A x i) (hy : B y j)
    (htotal : i + j * n = total) : A (powerFrom x y n) total := by
  induction n using Nat.strong_induction_on generalizing x y i j with
  | _ n ih =>
    have hsplit : j * n = j * (n % 2) + (j + j) * (n / 2) := by
      conv_lhs => rw [← Nat.mod_add_div n 2]
      rw [Nat.mul_add, ← Nat.mul_assoc, Nat.mul_two]
    have hdigit : A (if n % 2 = 1 then x.mul y else x) (i + j * (n % 2)) := by
      split
      next hodd =>
        rw [hodd, Nat.mul_one] at hsplit ⊢
        exact hmul x y i j hx hy (by omega)
      next heven =>
        rw [Nat.mod_two_ne_one.mp heven, Nat.mul_zero, Nat.add_zero]
        exact hx
    rw [powerFrom]
    split
    next hlast =>
      rw [hlast, Nat.mul_zero, Nat.add_zero] at hsplit
      rwa [← htotal, hsplit]
    next hmore =>
      have hle : (j + j) * 1 ≤ (j + j) * (n / 2) :=
        Nat.mul_le_mul_left _ (Nat.one_le_iff_ne_zero.mpr hmore)
      refine ih (n / 2) (by omega) hdigit (hsquare y j hy (by omega)) ?_
      omega

/-! ## Powers that the format has -/

theorem ofInt_natCast {w : Nat} (h : F.Representable (w * 2 ^ F.scale)) :
    (ofInt w : Floating F) = finite false (w * 2 ^ F.scale) h :=
  ofInt_of_representable (i := w) h

theorem mul_ofInt {v w : Nat} (hv : F.Representable (v * 2 ^ F.scale))
    (hw : F.Representable (w * 2 ^ F.scale)) (hvw : F.Representable (v * w * 2 ^ F.scale)) :
    (ofInt v : Floating F).mul (ofInt w) = ofInt (v * w : Nat) := by
  have hunits : v * 2 ^ F.scale * (w * 2 ^ F.scale) = v * w * 2 ^ F.scale * 2 ^ F.scale := by ac_rfl
  rw [ofInt_natCast hv, ofInt_natCast hw, ofInt_natCast hvw, mul, hunits,
    F.round_exact hvw (Nat.two_pow_pos _)]
  exact ofUnits_of_representable _ hvw

/-- **A power is exact if the format has it** and all those before it. -/
theorem power_ofInt {b n : Nat} (h : ∀ i ≤ n, F.Representable (b ^ i * 2 ^ F.scale)) :
    (ofInt b : Floating F).power n = ofInt (b ^ n : Nat) := by
  have hmul : ∀ (x y : Floating F) (i j : Nat), x = ofInt (b ^ i : Nat) → y = ofInt (b ^ j : Nat) →
      i + j ≤ n → x.mul y = ofInt (b ^ (i + j) : Nat) := by
    rintro x y i j rfl rfl hle
    have hsum := h (i + j) hle
    rw [Nat.pow_add] at hsum ⊢
    exact mul_ofInt (h i (by omega)) (h j (by omega)) hsum
  refine powerFrom_induction (A := fun x i => x = ofInt (b ^ i : Nat))
    (B := fun y j => y = ofInt (b ^ j : Nat)) hmul ?_ n (i := 0) (j := 1) ?_ ?_ ?_
  · intro y j hy hle
    exact hmul y y j j hy hy hle
  · rw [Nat.pow_zero]
    rfl
  · rw [Nat.pow_one]
  · rw [Nat.zero_add, Nat.one_mul]

/-! ## Powers that are rounded -/

/-- A number of one or more that up to `k` roundings can make of the exact value `q`; an infinity
only if so many roundings upwards can take `q` out of range. -/
inductive Approximates (q : ℚ) (k : Nat) : Floating F → Prop
  | finite {n : Nat} {h : F.Representable n} (one_le : 2 ^ F.scale ≤ n)
      (lower : q * (1 - F.roundoff) ^ k ≤ n / 2 ^ F.scale)
      (upper : n / 2 ^ F.scale ≤ q * (1 + F.roundoff) ^ k) : Approximates q k (finite false n h)
  | infinity (overflow : (2 : ℚ) ^ F.limit / 2 ^ F.scale ≤ q * (1 + F.roundoff) ^ k) :
      Approximates q k (infinity false)

theorem approximates_ofUnits_round {n d k : Nat} {q : ℚ} (hd : 0 < d)
    (one_le : 2 ^ F.scale ≤ F.round n d)
    (lower : q * (1 - F.roundoff) ^ k ≤ F.round n d / 2 ^ F.scale)
    (upper : F.round n d / 2 ^ F.scale ≤ q * (1 + F.roundoff) ^ k) :
    (ofUnits false (F.round n d) : Floating F).Approximates q k := by
  rcases Nat.lt_or_ge (F.round n d) (2 ^ F.limit) with hlt | hge
  · rw [ofUnits_of_representable _ (F.representable_round hd hlt)]
    exact .finite one_le lower upper
  · -- What is out of range bounds the exact value from below.
    rw [ofUnits, dif_neg fun h => Nat.not_lt_of_le hge h.1]
    refine .infinity (le_trans ?_ upper)
    gcongr
    exact_mod_cast hge

section

variable (hp : 0 < F.precision) (hscale : F.precision ≤ F.scale + 1) (hlimit : F.scale < F.limit)

include hlimit in
theorem Approximates.one_le {x : Floating F} {q : ℚ} {k : Nat} (hx : x.Approximates q k) :
    1 ≤ q * (1 + F.roundoff) ^ k := by
  cases hx with
  | @finite n h hone hlower hupper =>
    apply le_trans _ hupper
    rw [one_le_div₀ (by positivity)]
    exact_mod_cast hone
  | infinity hoverflow =>
    apply le_trans _ hoverflow
    rw [one_le_div₀ (by positivity)]
    exact pow_le_pow_right₀ (by norm_num) hlimit.le

include hp hscale in
/-- The product of two numbers of one or more: it is one or more again, and off by one rounding. -/
theorem round_product {m n : Nat} (hm : 2 ^ F.scale ≤ m) (hn : 2 ^ F.scale ≤ n) :
    2 ^ F.scale ≤ F.round (m * n) (2 ^ F.scale) ∧
      (m / 2 ^ F.scale * (n / 2 ^ F.scale) * (1 - F.roundoff) : ℚ) ≤
        F.round (m * n) (2 ^ F.scale) / 2 ^ F.scale ∧
      (F.round (m * n) (2 ^ F.scale) / 2 ^ F.scale : ℚ) ≤
        m / 2 ^ F.scale * (n / 2 ^ F.scale) * (1 + F.roundoff) := by
  have hunit : 0 < 2 ^ F.scale := Nat.two_pow_pos _
  have hle : 2 ^ F.scale * 2 ^ F.scale ≤ m * n := Nat.mul_le_mul hm hn
  have hbits : 2 ^ (F.precision - 1) ≤ m * n / 2 ^ F.scale := by
    rw [Nat.le_div_iff_mul_le hunit]
    refine Nat.le_trans (Nat.mul_le_mul_right _ ?_) hle
    exact Nat.pow_le_pow_right (by decide) (by omega)
  refine ⟨F.le_round (F.spacing_dvd_two_pow _) hunit hle, ?_⟩
  have herror := abs_le.mp (BinaryFormat.abs_round_sub_le hp hunit (Or.inr hbits))
  push_cast at herror
  have hS : (0 : ℚ) < 2 ^ F.scale := by positivity
  have hproduct : (m * n / 2 ^ F.scale : ℚ) =
      m / 2 ^ F.scale * (n / 2 ^ F.scale) * 2 ^ F.scale := by
    field_simp
  rw [hproduct] at herror
  rw [le_div_iff₀ hS, div_le_iff₀ hS]
  constructor <;> linarith [herror.1, herror.2]

include hp hscale hlimit in
/-- Finite factors: the roundings of both add up, and there is one more, that of the product. -/
theorem Approximates.mul_finite {m n : Nat} {hm : F.Representable m} {hn : F.Representable n}
    {q r : ℚ} {j k : Nat} (hx : (Floating.finite false m hm).Approximates q j)
    (hy : (Floating.finite false n hn).Approximates r k) :
    ((Floating.finite false m hm).mul (Floating.finite false n hn)).Approximates (q * r)
      (j + k + 1) := by
  have hu := F.roundoff_pos
  have hu1 := F.roundoff_le_one
  have hqone := hx.one_le hlimit
  have hrone := hy.one_le hlimit
  obtain @⟨_, _, hmone, hmlower, hmupper⟩ := hx
  obtain @⟨_, _, hnone, hnlower, hnupper⟩ := hy
  obtain ⟨hone, hlower, hupper⟩ := round_product hp hscale hmone hnone
  have hsplit : ∀ u : ℚ, q * r * u ^ (j + k + 1) = q * u ^ j * (r * u ^ k) * u := by
    intro u
    ring
  refine approximates_ofUnits_round (Nat.two_pow_pos _) hone ?_ ?_
  · have hr : 0 < r := pos_of_mul_pos_left (lt_of_lt_of_le one_pos hrone) (by positivity)
    have hnonneg : 0 ≤ r * (1 - F.roundoff) ^ k :=
      mul_nonneg hr.le (pow_nonneg (by linarith) k)
    rw [hsplit]
    refine le_trans (mul_le_mul_of_nonneg_right ?_ (by linarith)) hlower
    exact mul_le_mul hmlower hnlower hnonneg (by positivity)
  · rw [hsplit]
    refine le_trans hupper (mul_le_mul_of_nonneg_right ?_ (by linarith))
    exact mul_le_mul hmupper hnupper (by positivity) (by linarith)

theorem le_mul_roundings {q r u : ℚ} {j k : Nat} (hu : 1 ≤ u) (hq : 1 ≤ q * u ^ j)
    (hr : 1 ≤ r * u ^ k) : q * u ^ j ≤ q * r * u ^ (j + k + 1) := by
  calc q * u ^ j ≤ q * u ^ j * (r * u ^ k) := le_mul_of_one_le_right (by linarith) hr
    _ ≤ q * u ^ j * (r * u ^ k) * u := le_mul_of_one_le_right (by positivity) hu
    _ = q * r * u ^ (j + k + 1) := by ring

include hp hscale hlimit in
/-- **Every product is one more rounding.**  If a factor is an infinity, what took it out of range
takes the product out of range. -/
theorem Approximates.mul {x y : Floating F} {q r : ℚ} {j k : Nat} (hx : x.Approximates q j)
    (hy : y.Approximates r k) : (x.mul y).Approximates (q * r) (j + k + 1) := by
  have hu : 1 ≤ 1 + F.roundoff := le_add_of_nonneg_right F.roundoff_pos.le
  have hleft := le_mul_roundings hu (hx.one_le hlimit) (hy.one_le hlimit)
  have hright := le_mul_roundings hu (hy.one_le hlimit) (hx.one_le hlimit)
  rw [mul_comm r q, Nat.add_comm k j] at hright
  cases hx with
  | @finite m hm hmone hmlower hmupper =>
    cases hy with
    | @finite n hn hnone hnlower hnupper =>
      exact Approximates.mul_finite hp hscale hlimit (.finite hmone hmlower hmupper)
        (.finite hnone hnlower hnupper)
    | infinity hoverflow =>
      have hpos : m ≠ 0 := Nat.ne_of_gt (Nat.lt_of_lt_of_le (Nat.two_pow_pos _) hmone)
      rw [Floating.mul, if_neg hpos]
      exact .infinity (le_trans hoverflow hright)
  | infinity hoverflow =>
    have hle := le_trans hoverflow hleft
    cases hy with
    | @finite n hn hnone hnlower hnupper =>
      have hpos : n ≠ 0 := Nat.ne_of_gt (Nat.lt_of_lt_of_le (Nat.two_pow_pos _) hnone)
      rw [Floating.mul, if_neg hpos]
      exact .infinity hle
    | infinity hoverflow' =>
      rw [Floating.mul]
      exact .infinity hle

theorem approximates_ofInt {w : Nat} (hw : 0 < w) (h : F.Representable (w * 2 ^ F.scale)) :
    (ofInt w : Floating F).Approximates w 0 := by
  have hvalue : ((w * 2 ^ F.scale : ℕ) : ℚ) / 2 ^ F.scale = w := by
    push_cast
    field_simp
  rw [ofInt_natCast h]
  refine .finite (Nat.le_mul_of_pos_left _ hw) ?_ ?_
  · rw [hvalue, pow_zero, mul_one]
  · rw [hvalue, pow_zero, mul_one]

include hp hscale hlimit in
/-- **A power is off by as many roundings as its exponent says.** -/
theorem approximates_power {b : Nat} (hb : 0 < b) (h : F.Representable (b * 2 ^ F.scale))
    (n : Nat) :
    ((ofInt b : Floating F).power n).Approximates (b ^ n : ℚ) n := by
  have hone : F.Representable (1 * 2 ^ F.scale) := by
    rw [Nat.one_mul]
    exact ⟨Nat.pow_lt_pow_right (by decide) hlimit, F.spacing_dvd_two_pow _⟩
  refine powerFrom_induction (A := fun x i => x.Approximates (b ^ i : ℚ) i)
    (B := fun y j => 0 < j ∧ y.Approximates (b ^ j : ℚ) (j - 1)) ?_ ?_ n (i := 0) (j := 1) ?_ ?_ ?_
  · rintro x y i j hx ⟨hj, hy⟩ -
    have hmul := hx.mul hp hscale hlimit hy
    rwa [← pow_add, Nat.add_assoc, Nat.sub_add_cancel hj] at hmul
  · rintro y j ⟨hj, hy⟩ -
    have hmul := hy.mul hp hscale hlimit hy
    rw [← pow_add, Nat.add_assoc, Nat.sub_add_cancel hj] at hmul
    refine ⟨by omega, ?_⟩
    rwa [Nat.sub_add_comm hj]
  · rw [pow_zero]
    exact_mod_cast approximates_ofInt one_pos hone
  · rw [pow_one]
    exact ⟨one_pos, approximates_ofInt hb h⟩
  · rw [Nat.zero_add, Nat.one_mul]

end

/-! ## Powers of ten -/

theorem representable_ten_pow {i : Nat} (hi : i ≤ 22) :
    binary64.Representable (10 ^ i * 2 ^ binary64.scale) := by
  have hfive : 5 ^ i < 2 ^ binary64.precision :=
    Nat.lt_of_le_of_lt (Nat.pow_le_pow_right (by decide) hi) (by decide)
  have hsplit : 10 ^ i * 2 ^ binary64.scale =
      5 ^ i * 2 ^ (i + binary64.scale) := by
    rw [Nat.pow_add, show 10 = 5 * 2 from rfl, Nat.mul_pow, Nat.mul_assoc]
  rw [hsplit]
  refine ⟨?_, BinaryFormat.spacing_dvd_mul_two_pow _ hfive _⟩
  calc 5 ^ i * 2 ^ (i + binary64.scale)
      < 2 ^ binary64.precision * 2 ^ (i + binary64.scale) :=
        Nat.mul_lt_mul_of_pos_right hfive (Nat.two_pow_pos _)
    _ = 2 ^ (binary64.precision + (i + binary64.scale)) :=
        (Nat.pow_add _ _ _).symm
    _ ≤ 2 ^ binary64.limit := by
        apply Nat.pow_le_pow_right (by decide)
        show 53 + (i + 1074) ≤ 2098
        omega

/-- **Powers of ten up to `10 ^ 22` are exact.** -/
theorem power_ten {n : Nat} (hn : n ≤ 22) :
    (ofInt 10 : Binary64).power n =
      finite false (10 ^ n * 2 ^ binary64.scale) (representable_ten_pow hn) := by
  rw [← ofInt_natCast (representable_ten_pow hn)]
  exact power_ofInt fun i hi => representable_ten_pow (Nat.le_trans hi hn)

theorem approximates_power_ten (n : Nat) :
    ((ofInt 10 : Binary64).power n).Approximates (10 ^ n : ℚ) n := by
  have h := representable_ten_pow (i := 1) (by decide)
  rw [Nat.pow_one] at h
  exact approximates_power (by decide) (by decide) (by decide) (b := 10) (by decide) h n

/-- How far powers of ten reach with all roundings against them, in both directions: `10 ^ 308`
stays below `2 ^ 1024`, and `10 ^ 309` above. -/
theorem ten_pow_roundoff :
    (10 ^ (308 : ℕ) * (1 + binary64.roundoff) ^ (308 : ℕ) : ℚ) <
        2 ^ binary64.limit / 2 ^ binary64.scale ∧
      (2 ^ binary64.limit / 2 ^ binary64.scale : ℚ) ≤
        10 ^ (309 : ℕ) * (1 - binary64.roundoff) ^ (309 : ℕ) := by
  have hupper : (10 * (2 ^ (53 : ℕ) + 1)) ^ (308 : ℕ) * 2 ^ binary64.scale <
      2 ^ binary64.limit * (2 ^ (53 : ℕ)) ^ (308 : ℕ) := by
    decide +kernel
  have hlower : 2 ^ binary64.limit * (2 ^ (53 : ℕ)) ^ (309 : ℕ) ≤
      (10 * (2 ^ (53 : ℕ) - 1)) ^ (309 : ℕ) * 2 ^ binary64.scale := by
    decide +kernel
  have hplus : (10 * (1 + binary64.roundoff) : ℚ) =
      (10 * (2 ^ (53 : ℕ) + 1) : ℕ) / (2 ^ (53 : ℕ) : ℕ) := by
    rw [show binary64.roundoff = 1 / 2 ^ (53 : ℕ) from rfl]
    norm_num
  have hminus : (10 * (1 - binary64.roundoff) : ℚ) =
      (10 * (2 ^ (53 : ℕ) - 1) : ℕ) / (2 ^ (53 : ℕ) : ℕ) := by
    rw [show binary64.roundoff = 1 / 2 ^ (53 : ℕ) from rfl]
    norm_num
  have hd : 0 < 2 ^ (53 : ℕ) := by decide
  rw [← mul_pow, ← mul_pow, hplus, hminus, div_pow, div_pow]
  generalize 10 * (2 ^ (53 : ℕ) + 1) = above at hupper ⊢
  generalize 10 * (2 ^ (53 : ℕ) - 1) = below at hlower ⊢
  generalize 2 ^ (53 : ℕ) = d at hupper hlower hd ⊢
  -- Left as variables, the exponents are not worked out again.
  generalize 308 = k at hupper ⊢
  generalize 309 = l at hlower ⊢
  have hd' : (0 : ℚ) < d := by exact_mod_cast hd
  constructor
  · rw [div_lt_div_iff₀ (pow_pos hd' _) (pow_pos two_pos _)]
    exact_mod_cast hupper
  · rw [div_le_div_iff₀ (pow_pos two_pos _) (pow_pos hd' _)]
    exact_mod_cast hlower

/-- **Powers of ten up to `10 ^ 308` are in range.**  All the roundings together do not take them
out of it. -/
theorem power_ten_of_le {n : Nat} (hn : n ≤ 308) :
    ∃ m h, (ofInt 10 : Binary64).power n = finite false m h := by
  have hroundoff := binary64.roundoff_pos
  generalize hx : (ofInt 10 : Binary64).power n = x
  cases hx ▸ approximates_power_ten n with
  | @finite m h hone hlower hupper => exact ⟨m, h, rfl⟩
  | infinity hoverflow =>
    have hle : (10 ^ n * (1 + binary64.roundoff) ^ n : ℚ) ≤
        10 ^ (308 : ℕ) * (1 + binary64.roundoff) ^ (308 : ℕ) := by
      rw [← mul_pow, ← mul_pow]
      exact pow_le_pow_right₀ (by linarith) hn
    exact absurd (le_trans hoverflow hle) (not_le_of_gt ten_pow_roundoff.1)

/-- **The next one is not**, and no later one is. -/
theorem power_ten_of_lt {n : Nat} (hn : 308 < n) :
    (ofInt 10 : Binary64).power n = infinity false := by
  have hroundoff : 1 ≤ 10 * (1 - binary64.roundoff) := by
    rw [show binary64.roundoff = 1 / 2 ^ (53 : ℕ) from rfl]
    norm_num
  generalize hx : (ofInt 10 : Binary64).power n = x
  cases hx ▸ approximates_power_ten n with
  | @finite m h hone hlower hupper =>
    have hle : (10 ^ (309 : ℕ) * (1 - binary64.roundoff) ^ (309 : ℕ) : ℚ) ≤
        10 ^ n * (1 - binary64.roundoff) ^ n := by
      rw [← mul_pow, ← mul_pow]
      exact pow_le_pow_right₀ hroundoff hn
    have hrange : (m / 2 ^ binary64.scale : ℚ) <
        2 ^ binary64.limit / 2 ^ binary64.scale := by
      gcongr
      exact_mod_cast h.1
    exact absurd (le_trans ten_pow_roundoff.2 (le_trans hle hlower)) (not_le_of_gt hrange)
  | infinity hoverflow => rfl

end Floating

end PercentFormat
