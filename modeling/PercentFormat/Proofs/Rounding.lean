import PercentFormat.Binary.Decimal

/-!
# Rounding to a binary format

What is needed of rounding is how it compares: it depends on the quotient alone, it is monotone, and
a magnitude of the format is passed from neither side.  The range of the format plays no part in
this, so a magnitude of the format is here a multiple of its own spacing.

A binade begins with a power of two, and the spacing of a binade divides that of every later one;
where two quotients lie in different binades, the power that the upper one begins with lies between
them and is kept by rounding.

## Main results

* `round_eq_of_mul_eq`: equal quotients are rounded alike
* `round_le`, `le_round`: rounding does not pass a magnitude of the format
* `round_mono`: rounding is monotone
* `ofDecimal_eq`: reading a decimal is one rounding, whatever its exponent
-/

namespace PercentFormat

namespace BinaryFormat

/-! ## The nearest whole number -/

theorem div_le_nearestEven (a b : Nat) : a / b ≤ nearestEven a b := by
  unfold nearestEven
  split
  · exact Nat.le_refl _
  · split
    · exact Nat.le_succ _
    · exact Nat.le_add_right _ _

theorem nearestEven_le {a b q : Nat} (hb : 0 < b) (h : a ≤ q * b) : nearestEven a b ≤ q := by
  have hdiv : b * (a / b) + a % b = a := Nat.div_add_mod a b
  rcases Nat.lt_or_ge (a / b) q with hlt | hge
  · unfold nearestEven
    split
    · omega
    · split <;> omega
  · have hmul : b * q ≤ b * (a / b) := Nat.mul_le_mul_left b hge
    rw [Nat.mul_comm] at h
    have hmod : a % b = 0 := by omega
    have hq : a / b = q := by
      apply Nat.eq_of_mul_eq_mul_left hb
      omega
    have heq : nearestEven a b = q := by rw [nearestEven, hmod, if_pos (by omega), hq]
    exact Nat.le_of_eq heq

theorem nearestEven_mul_right (a b : Nat) {c : Nat} (hc : 0 < c) :
    nearestEven (a * c) (b * c) = nearestEven a b := by
  have hlt : 2 * (a % b * c) < b * c ↔ 2 * (a % b) < b := by
    rw [← Nat.mul_assoc, Nat.mul_lt_mul_right hc]
  have hgt : b * c < 2 * (a % b * c) ↔ b < 2 * (a % b) := by
    rw [← Nat.mul_assoc, Nat.mul_lt_mul_right hc]
  simp only [nearestEven, Nat.mul_div_mul_right a b hc, Nat.mul_mod_mul_right, hlt, hgt]

theorem div_le_div_of_mul_le {a b c d : Nat} (hb : 0 < b) (hd : 0 < d) (h : a * d ≤ c * b) :
    a / b ≤ c / d := by
  rw [Nat.le_div_iff_mul_le hd]
  apply Nat.le_of_mul_le_mul_right _ hb
  calc a / b * d * b = a / b * b * d := Nat.mul_right_comm _ _ _
    _ ≤ a * d := Nat.mul_le_mul_right d (Nat.div_mul_le_self a b)
    _ ≤ c * b := h

/-- Of two quotients with one whole part, the remainders compare as the quotients do. -/
theorem mod_mul_le_mod_mul {a b c d : Nat} (heq : a / b = c / d) (h : a * d ≤ c * b) :
    a % b * d ≤ c % d * b := by
  have ha : (b * (a / b) + a % b) * d = a * d := by rw [Nat.div_add_mod]
  have hc : (d * (c / d) + c % d) * b = c * b := by rw [Nat.div_add_mod]
  have hwhole : b * (a / b) * d = d * (c / d) * b := by
    rw [heq]
    ac_rfl
  rw [Nat.add_mul] at ha hc
  omega

theorem nearestEven_mono {a b c d : Nat} (hb : 0 < b) (hd : 0 < d) (h : a * d ≤ c * b) :
    nearestEven a b ≤ nearestEven c d := by
  rcases Nat.eq_or_lt_of_le (div_le_div_of_mul_le hb hd h) with heq | hlt
  · -- The whole parts are equal, so the remainders decide.
    have hmod := mod_mul_le_mod_mul heq h
    have hbelow : 2 * (c % d) < d → 2 * (a % b) < b := by
      intro hlt
      apply Nat.lt_of_mul_lt_mul_right (a := d)
      calc 2 * (a % b) * d = 2 * (a % b * d) := Nat.mul_assoc _ _ _
        _ ≤ 2 * (c % d * b) := Nat.mul_le_mul_left 2 hmod
        _ = 2 * (c % d) * b := (Nat.mul_assoc _ _ _).symm
        _ < d * b := Nat.mul_lt_mul_of_pos_right hlt hb
        _ = b * d := Nat.mul_comm d b
    have habove : b < 2 * (a % b) → d < 2 * (c % d) := by
      intro hlt
      apply Nat.lt_of_mul_lt_mul_right (a := b)
      calc d * b = b * d := Nat.mul_comm d b
        _ < 2 * (a % b) * d := Nat.mul_lt_mul_of_pos_right hlt hd
        _ = 2 * (a % b * d) := Nat.mul_assoc _ _ _
        _ ≤ 2 * (c % d * b) := Nat.mul_le_mul_left 2 hmod
        _ = 2 * (c % d) * b := (Nat.mul_assoc _ _ _).symm
    unfold nearestEven
    rw [heq]
    by_cases hc : 2 * (c % d) < d
    · exact Nat.le_of_eq (by rw [if_pos hc, if_pos (hbelow hc)])
    · by_cases hc' : d < 2 * (c % d)
      · rw [if_neg hc, if_pos hc']
        split
        · omega
        · split <;> omega
      · rw [if_neg hc, if_neg hc', if_neg fun ha => hc' (habove ha)]
        split <;> omega
  · have hround : nearestEven a b ≤ a / b + 1 := by
      apply nearestEven_le hb
      rw [Nat.mul_comm]
      exact Nat.le_of_lt (Nat.lt_mul_div_succ a hb)
    exact Nat.le_trans (Nat.le_trans hround hlt) (div_le_nearestEven c d)

/-! ## Binades -/

theorem log2_le_log2 {m n : Nat} (h : m ≤ n) : m.log2 ≤ n.log2 := by
  rcases Nat.eq_zero_or_pos m with rfl | hm
  · rw [Nat.log2_zero]
    exact Nat.zero_le _
  · rw [Nat.le_log2 (by omega)]
    exact Nat.le_trans (Nat.log2_self_le (by omega)) h

/-- The power of two that the upper of two binades begins with lies between numbers of both. -/
theorem two_pow_log2_between {m n : Nat} (h : m.log2 < n.log2) :
    m < 2 ^ n.log2 ∧ 2 ^ n.log2 ≤ n := by
  have hn : n ≠ 0 := by
    rintro rfl
    rw [Nat.log2_zero] at h
    exact Nat.not_lt_zero _ h
  refine ⟨?_, Nat.log2_self_le hn⟩
  rcases Nat.eq_zero_or_pos m with rfl | hm
  · exact Nat.two_pow_pos _
  · exact (Nat.log2_lt (Nat.ne_of_gt hm)).mp h

variable (F : BinaryFormat)

theorem spacing_dvd_spacing {m n : Nat} (h : m ≤ n) : F.spacing m ∣ F.spacing n := by
  have hlog := log2_le_log2 h
  apply Nat.pow_dvd_pow
  omega

theorem spacing_dvd_two_pow (k : Nat) : F.spacing (2 ^ k) ∣ 2 ^ k := by
  apply Nat.pow_dvd_pow
  rw [Nat.log2_two_pow]
  omega

/-- A whole number of no more bits than the format has, on any scale, is a multiple of its
spacing. -/
theorem spacing_dvd_mul_two_pow {m : Nat} (h : m < 2 ^ F.precision) (k : Nat) :
    F.spacing (m * 2 ^ k) ∣ m * 2 ^ k := by
  rcases Nat.eq_zero_or_pos m with rfl | hm
  · simp
  · have hlog : (m * 2 ^ k).log2 < F.precision + k := by
      rw [Nat.log2_lt (Nat.mul_ne_zero (by omega) (by simp)), Nat.pow_add]
      exact Nat.mul_lt_mul_of_pos_right h (Nat.two_pow_pos k)
    apply Nat.dvd_trans _ (Nat.dvd_mul_left _ m)
    apply Nat.pow_dvd_pow
    omega

/-! ## Rounding and comparison -/

theorem round_mul_right (n d : Nat) {c : Nat} (hc : 0 < c) :
    F.round (n * c) (d * c) = F.round n d := by
  rw [round, round, Nat.mul_div_mul_right n d hc, Nat.mul_right_comm d,
    nearestEven_mul_right _ _ hc]

/-- Equal quotients are rounded alike. -/
theorem round_eq_of_mul_eq {a b c d : Nat} (hb : 0 < b) (hd : 0 < d) (h : a * d = c * b) :
    F.round a b = F.round c d := by
  rw [← F.round_mul_right a b hd, h, Nat.mul_comm b d, F.round_mul_right c d hb]

theorem round_eq_zero {n d : Nat} (h : 2 * n < d) : F.round n d = 0 := by
  have hdiv : n / d = 0 := Nat.div_eq_of_lt (by omega)
  have hmod : n % d = n := Nat.mod_eq_of_lt (by omega)
  have hspacing : F.spacing 0 = 1 := by simp [spacing]
  rw [round, hdiv, hspacing, Nat.mul_one, Nat.mul_one, nearestEven, hmod, if_pos h, hdiv]

/-- A quotient that does not exceed a magnitude of the format is not rounded above it. -/
theorem round_le {r n d : Nat} (hr : F.spacing r ∣ r) (hd : 0 < d) (h : n ≤ r * d) :
    F.round n d ≤ r := by
  have hq : n / d ≤ r := Nat.div_le_of_le_mul (by rwa [Nat.mul_comm])
  -- The spacing at the quotient is the finer one, so `r` is a multiple of it.
  obtain ⟨t, ht⟩ := Nat.dvd_trans (F.spacing_dvd_spacing hq) hr
  have hs := F.spacing_pos (n / d)
  have hnear : nearestEven n (d * F.spacing (n / d)) ≤ t := by
    apply nearestEven_le (Nat.mul_pos hd hs)
    rw [ht] at h
    calc n ≤ F.spacing (n / d) * t * d := h
      _ = t * (d * F.spacing (n / d)) := by ac_rfl
  calc F.round n d ≤ t * F.spacing (n / d) := Nat.mul_le_mul_right _ hnear
    _ = r := by rw [Nat.mul_comm, ← ht]

theorem mul_spacing_le_round {t n d : Nat} (hd : 0 < d) (h : t * F.spacing (n / d) * d ≤ n) :
    t * F.spacing (n / d) ≤ F.round n d := by
  have hs := F.spacing_pos (n / d)
  apply Nat.mul_le_mul_right
  apply Nat.le_trans _ (div_le_nearestEven _ _)
  rw [Nat.le_div_iff_mul_le (Nat.mul_pos hd hs)]
  calc t * (d * F.spacing (n / d)) = t * F.spacing (n / d) * d := by ac_rfl
    _ ≤ n := h

/-- A quotient that is not below a magnitude of the format is not rounded below it. -/
theorem le_round {r n d : Nat} (hr : F.spacing r ∣ r) (hd : 0 < d) (h : r * d ≤ n) :
    r ≤ F.round n d := by
  have hq : r ≤ n / d := (Nat.le_div_iff_mul_le hd).mpr h
  rcases Nat.eq_or_lt_of_le (log2_le_log2 hq) with hlog | hlog
  · have hspacing : F.spacing r = F.spacing (n / d) := by rw [spacing, spacing, hlog]
    obtain ⟨t, ht⟩ := hr
    rw [hspacing, Nat.mul_comm] at ht
    rw [ht] at h ⊢
    exact F.mul_spacing_le_round hd h
  · obtain ⟨hlt, hle⟩ := two_pow_log2_between hlog
    have hpow : 2 ^ (n / d).log2 =
        2 ^ min (n / d).log2 (F.precision - 1) * F.spacing (n / d) := by
      rw [spacing, ← Nat.pow_add]
      congr 1
      omega
    have hmul : 2 ^ (n / d).log2 * d ≤ n := (Nat.le_div_iff_mul_le hd).mp hle
    rw [hpow] at hmul hlt
    exact Nat.le_trans (Nat.le_of_lt hlt) (F.mul_spacing_le_round hd hmul)

/-- **Rounding is monotone.** -/
theorem round_mono {a b c d : Nat} (hb : 0 < b) (hd : 0 < d) (h : a * d ≤ c * b) :
    F.round a b ≤ F.round c d := by
  rcases Nat.eq_or_lt_of_le (log2_le_log2 (div_le_div_of_mul_le hb hd h)) with hlog | hlog
  · -- In one binade both are counted in the same spacing.
    have hspacing : F.spacing (a / b) = F.spacing (c / d) := by rw [spacing, spacing, hlog]
    have hs := F.spacing_pos (c / d)
    rw [round, round, hspacing]
    apply Nat.mul_le_mul_right
    apply nearestEven_mono (Nat.mul_pos hb hs) (Nat.mul_pos hd hs)
    calc a * (d * F.spacing (c / d)) = a * d * F.spacing (c / d) := (Nat.mul_assoc _ _ _).symm
      _ ≤ c * b * F.spacing (c / d) := Nat.mul_le_mul_right _ h
      _ = c * (b * F.spacing (c / d)) := Nat.mul_assoc _ _ _
  · -- The power of two that the upper binade begins with lies between them, and neither passes it.
    obtain ⟨hlt, hle⟩ := two_pow_log2_between hlog
    have hpow := F.spacing_dvd_two_pow (c / d).log2
    have hlower : a ≤ 2 ^ (c / d).log2 * b := Nat.le_of_lt ((Nat.div_lt_iff_lt_mul hb).mp hlt)
    have hupper : 2 ^ (c / d).log2 * d ≤ c := (Nat.le_div_iff_mul_le hd).mp hle
    exact Nat.le_trans (F.round_le hpow hb hlower) (F.le_round hpow hd hupper)

end BinaryFormat

/-! ## Integers and decimals -/

namespace Floating

variable {F : BinaryFormat}

theorem ofInt_zero : (ofInt 0 : Floating F) = zero := by
  have hround : F.round ((0 : Int).natAbs * 2 ^ F.scale) 1 = 0 := by
    apply F.round_eq_zero
    simp
  rw [ofInt, hround, ofUnits_of_representable _ F.representable_zero]
  rfl

theorem ofUnits_round_of_limit_le (negative : Bool) {n d : Nat} (hd : 0 < d)
    (h : 2 ^ F.limit * d ≤ n) :
    (ofUnits negative (F.round n d) : Floating F) = infinity negative := by
  have hle := F.le_round (F.spacing_dvd_two_pow F.limit) hd h
  apply dif_neg
  rintro ⟨hlt, -⟩
  exact Nat.not_lt_of_le hle hlt

/-- **Reading a decimal is one rounding.**  The exponents that are too large or too small to raise
ten to are decided as the rounding would decide them. -/
theorem ofDecimal_eq (negative : Bool) (m : Nat) (e : Int) :
    (ofDecimal negative m e : Floating F) =
      ofUnits negative (F.round (m * 10 ^ e.toNat * 2 ^ F.scale) (10 ^ (-e).toNat)) := by
  rcases Nat.eq_zero_or_pos m with rfl | hm
  · rw [Nat.zero_mul, Nat.zero_mul, F.round_eq_zero (Nat.pow_pos (by decide))]
    rfl
  · unfold ofDecimal
    rw [if_neg (Nat.ne_of_gt hm)]
    cases e with
    | ofNat e =>
      have hdenominator : (-Int.ofNat e).toNat = 0 := by
        rw [Int.toNat_eq_zero]
        exact Int.neg_nonpos_of_nonneg (Int.natCast_nonneg e)
      rw [hdenominator, Nat.pow_zero, show (Int.ofNat e).toNat = e from rfl]
      dsimp only
      split
      next hlarge =>
        symm
        apply ofUnits_round_of_limit_le negative Nat.one_pos
        calc 2 ^ F.limit * 1 = 2 ^ F.limit := Nat.mul_one _
          _ ≤ 2 ^ (3 * e) := Nat.pow_le_pow_right (by decide) hlarge
          _ = 8 ^ e := Nat.pow_mul 2 3 e
          _ ≤ 10 ^ e := Nat.pow_le_pow_left (by decide) e
          _ ≤ m * 10 ^ e := Nat.le_mul_of_pos_left _ hm
          _ ≤ m * 10 ^ e * 2 ^ F.scale := Nat.le_mul_of_pos_right _ (Nat.two_pow_pos _)
      next => rfl
    | negSucc e =>
      rw [show (Int.negSucc e).toNat = 0 from rfl, show (-Int.negSucc e).toNat = e + 1 from rfl,
        Nat.pow_zero, Nat.mul_one]
      dsimp only
      split
      next hsmall =>
        rw [F.round_eq_zero]
        calc 2 * (m * 2 ^ F.scale) = m * 2 ^ (F.scale + 1) := by
              rw [Nat.pow_succ]
              ac_rfl
          _ < 2 ^ (m.log2 + 1) * 2 ^ (F.scale + 1) :=
              Nat.mul_lt_mul_of_pos_right Nat.lt_log2_self (Nat.two_pow_pos _)
          _ = 2 ^ (m.log2 + F.scale + 2) := by
              rw [← Nat.pow_add]
              congr 1
              omega
          _ ≤ 2 ^ (3 * (e + 1)) := Nat.pow_le_pow_right (by decide) hsmall
          _ = 8 ^ (e + 1) := Nat.pow_mul 2 3 (e + 1)
          _ ≤ 10 ^ (e + 1) := Nat.pow_le_pow_left (by decide) (e + 1)
      next => rfl

theorem ofDecimal_places (negative : Bool) (m k : Nat) :
    (ofDecimal negative m (0 - k) : Floating F) =
      ofUnits negative (F.round (m * 2 ^ F.scale) (10 ^ k)) := by
  have hnumerator : ((0 : Int) - k).toNat = 0 := by omega
  have hdenominator : (-((0 : Int) - k)).toNat = k := by omega
  rw [ofDecimal_eq, hnumerator, hdenominator, Nat.pow_zero, Nat.mul_one]

end Floating

end PercentFormat
