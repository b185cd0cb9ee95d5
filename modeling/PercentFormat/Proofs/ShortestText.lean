import Mathlib.Data.List.TakeWhile
import PercentFormat.Proofs.LeadingNumber
import PercentFormat.Proofs.Rounding
import PercentFormat.Binary.Shortest

/-!
# The shortest decimal

The search for the shortest decimal stops at the first grid on which one of two points reads back.
Since rounding is monotone, what reads back lies between two ends, so whenever any point of a grid
reads back, one of the two around the exact decimal does; and since each grid is part of the finer
ones, no grid that was passed over had a point to offer.

The same argument tells what stands before the point.  The shortest decimal of a number between two
neighbouring whole numbers stays between them, because these read back as themselves.  This is so as
long as a format has all whole numbers; beyond, the shortest decimal of a whole number can be
another whole number.

## Main results

* `readsBack_shortest`: the shortest decimal reads back
* `dvd_shortest`: no decimal that reads back has fewer digits
* `shortest_div_ten_pow`: the shortest decimal has the whole part of the number
* `exists_positional`: positional text writes the digits of its decimal, zeros at the end apart
-/

namespace PercentFormat

namespace Digits

theorem value_replicate_zero (k : Nat) : value (List.replicate k '0') = 0 := by
  rw [value, Nat.ofDigitChars_replicate_zero, Nat.mul_zero]

theorem exists_trailing_zeros (ds : List Char) :
    ∃ k, ds = (ds.reverse.dropWhile (· == '0')).reverse ++ List.replicate k '0' := by
  have hzeros : ∀ d ∈ ds.reverse.takeWhile (· == '0'), d = '0' := by
    intro d hd
    simpa using List.mem_takeWhile_imp hd
  refine ⟨(ds.reverse.takeWhile (· == '0')).length, ?_⟩
  apply List.reverse_inj.mp
  rw [List.reverse_append, List.reverse_reverse, List.reverse_replicate,
    ← List.eq_replicate_iff.mpr ⟨rfl, hzeros⟩, List.takeWhile_append_dropWhile]

/-- The digits of a number, filled up to a number of places with zeros in front. -/
theorem replicate_zero_append_ofNat {places r : Nat} (hp : 0 < places) (h : r < 10 ^ places)
    {ds : List Char} (hds : List.replicate (places - (ofNat r).length) '0' ++ ofNat r = ds) :
    ds.length = places ∧ (∀ d ∈ ds, d.isDigit = true) ∧ value ds = r := by
  have hlength : (ofNat r).length ≤ places := (Nat.length_toDigits_le_iff (by decide) hp).mpr h
  refine ⟨?_, ?_, ?_⟩
  · rw [← hds, List.length_append, List.length_replicate]
    omega
  · intro d hd
    rw [← hds, List.mem_append] at hd
    rcases hd with hd | hd
    · rw [List.eq_of_mem_replicate hd]
      rfl
    · exact isDigit_of_mem_ofNat hd
  · rw [← hds, value_append, value_replicate_zero, Nat.zero_mul, Nat.zero_add, value_ofNat]

end Digits

namespace BinaryFormat

variable {F : BinaryFormat}

theorem five_pow_pos (k : Nat) : 0 < 5 ^ k :=
  Nat.pow_pos (by decide)

theorem ten_pow (k : Nat) : 10 ^ k = 2 ^ k * 5 ^ k :=
  Nat.mul_pow 2 5 k

/-! ## Reading back -/

theorem readsBack_exact {n : Nat} (h : F.Representable n) : F.ReadsBack n (n * 5 ^ F.scale) :=
  F.round_exact h (five_pow_pos F.scale)

theorem readsBack_shortestFrom {n d : Nat} (hd : F.ReadsBack n d) (g : Nat) :
    F.ReadsBack n (F.shortestFrom n d g) := by
  induction g with
  | zero => exact hd
  | succ g ih =>
    rw [shortestFrom]
    split
    next hbelow =>
      split
      next habove => exact habove.1
      next => exact hbelow
    next =>
      split
      next habove => exact habove
      next => exact ih

/-- **The shortest decimal reads back.** -/
theorem readsBack_shortest {n : Nat} (h : F.Representable n) : F.ReadsBack n (F.shortest n) :=
  readsBack_shortestFrom (readsBack_exact h) _

theorem ReadsBack.between {n d e c : Nat} (hd : F.ReadsBack n d) (he : F.ReadsBack n e)
    (hdc : d ≤ c) (hce : c ≤ e) : F.ReadsBack n c := by
  have hpos := five_pow_pos F.scale
  have hlow := F.round_mono hpos hpos (Nat.mul_le_mul_right (5 ^ F.scale) hdc)
  have hhigh := F.round_mono hpos hpos (Nat.mul_le_mul_right (5 ^ F.scale) hce)
  rw [show F.round d _ = n from hd] at hlow
  rw [show F.round e _ = n from he] at hhigh
  exact Nat.le_antisymm hhigh hlow

/-- If a point of a grid reads back, one of the two around the exact decimal does. -/
theorem readsBack_below_or_above {n d G e : Nat} (hG : 0 < G) (hd : F.ReadsBack n d)
    (he : F.ReadsBack n (e * G)) :
    F.ReadsBack n (d / G * G) ∨ F.ReadsBack n (d / G * G + G) := by
  have hbelow : d / G * G ≤ d := Nat.div_mul_le_self d G
  have habove : d < d / G * G + G := by
    have := Nat.lt_mul_div_succ d hG
    rw [Nat.mul_comm] at this
    rwa [Nat.add_mul, Nat.one_mul] at this
  rcases Nat.lt_or_ge (d / G) e with hlt | hge
  · right
    apply hd.between he (Nat.le_of_lt habove)
    calc d / G * G + G = (d / G + 1) * G := by rw [Nat.add_mul, Nat.one_mul]
      _ ≤ e * G := Nat.mul_le_mul_right G hlt
  · left
    exact he.between hd (Nat.mul_le_mul_right G hge) hbelow

theorem dvd_shortestFrom {n d g : Nat} (hd : F.ReadsBack n d) {e : Nat}
    (he : F.ReadsBack n (e * 10 ^ g)) {k : Nat} (hk : g ≤ k) : 10 ^ g ∣ F.shortestFrom n d k := by
  -- The coarser grids are part of this one, and on this one the search ends at the latest.
  induction k with
  | zero =>
    rw [Nat.le_zero.mp hk, Nat.pow_zero]
    exact Nat.one_dvd _
  | succ k ih =>
    have hdvd : 10 ^ g ∣ 10 ^ (k + 1) := Nat.pow_dvd_pow 10 hk
    have hbelow : 10 ^ g ∣ d / 10 ^ (k + 1) * 10 ^ (k + 1) := Nat.dvd_trans hdvd (Nat.dvd_mul_left _ _)
    rw [shortestFrom]
    split
    next =>
      split
      · exact Nat.dvd_add hbelow hdvd
      · exact hbelow
    next hb =>
      split
      next => exact Nat.dvd_add hbelow hdvd
      next ha =>
        rcases Nat.eq_or_lt_of_le hk with rfl | hlt
        · rcases readsBack_below_or_above (Nat.pow_pos (by decide)) hd he with h | h
          · exact absurd h hb
          · exact absurd h ha
        · exact ih (Nat.le_of_lt_succ hlt)

/-- **No decimal that reads back has fewer digits.**  Where one of them ends, the shortest decimal
ends too, or before.  Places in front of the leading digit do not count: a decimal that ends there
has one digit, and so has the shortest one then. -/
theorem dvd_shortest {n e g : Nat} (h : F.Representable n) (hg : 10 ^ g ≤ n * 5 ^ F.scale)
    (he : F.ReadsBack n (e * 10 ^ g)) : 10 ^ g ∣ F.shortest n := by
  apply dvd_shortestFrom (readsBack_exact h) he
  -- The search begins at the leading digit, which is not behind the place of `10 ^ g`.
  rcases Nat.eq_zero_or_pos g with rfl | hpos
  · exact Nat.zero_le _
  · apply Nat.le_sub_one_of_lt
    apply Nat.lt_of_not_le
    intro hlength
    exact Nat.not_lt_of_le hg ((Nat.length_toDigits_le_iff (by decide) hpos).mp hlength)

/-! ## The whole part -/

theorem round_whole (a : Nat) :
    F.round (a * 10 ^ F.scale) (5 ^ F.scale) = F.round (a * 2 ^ F.scale) 1 := by
  apply F.round_eq_of_mul_eq (five_pow_pos F.scale) Nat.one_pos
  rw [ten_pow]
  ac_rfl

theorem spacing_dvd_whole {w : Nat} (hw : w ≤ 2 ^ F.precision) :
    F.spacing (w * 2 ^ F.scale) ∣ w * 2 ^ F.scale := by
  rcases Nat.eq_or_lt_of_le hw with rfl | hlt
  · rw [← Nat.pow_add]
    exact F.spacing_dvd_two_pow _
  · exact F.spacing_dvd_mul_two_pow hlt F.scale

theorem readsBack_whole {w : Nat} (hw : w ≤ 2 ^ F.precision) :
    F.ReadsBack (w * 2 ^ F.scale) (w * 10 ^ F.scale) := by
  have hs := F.spacing_dvd_whole hw
  have hone : w * 2 ^ F.scale * 1 = w * 2 ^ F.scale := Nat.mul_one _
  rw [ReadsBack, round_whole]
  apply Nat.le_antisymm
  · exact F.round_le hs Nat.one_pos (Nat.le_of_eq hone.symm)
  · exact F.le_round hs Nat.one_pos (Nat.le_of_eq hone)

/-- An even whole number has one bit to spare. -/
theorem spacing_dvd_even {m : Nat} (hm : m < 2 ^ F.precision) :
    F.spacing (2 * m * 2 ^ F.scale) ∣ 2 * m * 2 ^ F.scale := by
  have hscale : 2 * m * 2 ^ F.scale = m * 2 ^ (F.scale + 1) := by
    rw [Nat.pow_succ]
    ac_rfl
  rw [hscale]
  exact F.spacing_dvd_mul_two_pow hm (F.scale + 1)

/-- Of the whole multiples of ten, only a small whole number itself reads back as it. -/
theorem eq_of_readsBack_whole (hp : 1 < F.precision) {w c : Nat} (hw : w ≤ 2 ^ F.precision)
    (hc : 10 * 10 ^ F.scale ∣ c) (h : F.ReadsBack (w * 2 ^ F.scale) c) : c = w * 10 ^ F.scale := by
  obtain ⟨b, rfl⟩ := hc
  have hten : 10 * 10 ^ F.scale * b = 10 * b * 10 ^ F.scale := Nat.mul_right_comm _ _ _
  rw [hten] at h ⊢
  rw [ReadsBack, round_whole] at h
  rcases Nat.lt_or_ge (2 ^ F.precision) (10 * b) with hlt | hle
  · -- Beyond the whole numbers that are kept, even ones are kept too, and the next of them is
    -- greater than `w` and does not exceed `10 * b`.
    exfalso
    obtain ⟨m, hm⟩ : ∃ m, 2 ^ F.precision = 2 * m := ⟨2 ^ (F.precision - 1), by
      rw [← Nat.pow_succ']
      congr 1
      omega⟩
    have hspare : m + 1 < 2 ^ F.precision := by
      have := Nat.pow_le_pow_right (show 0 < 2 by decide) hp
      omega
    have hround : 2 * (m + 1) * 2 ^ F.scale ≤ w * 2 ^ F.scale := by
      rw [← h]
      apply F.le_round (F.spacing_dvd_even hspare) Nat.one_pos
      rw [Nat.mul_one]
      exact Nat.mul_le_mul_right _ (by omega)
    have hle := Nat.le_of_mul_le_mul_right hround (Nat.two_pow_pos _)
    omega
  · have hkept := readsBack_whole hle
    rw [ReadsBack, round_whole] at hkept
    rw [Nat.eq_of_mul_eq_mul_right (Nat.two_pow_pos _) (hkept.symm.trans h)]

theorem shortestFrom_whole (hp : 1 < F.precision) {w : Nat} (hw : w ≤ 2 ^ F.precision) (g : Nat) :
    F.shortestFrom (w * 2 ^ F.scale) (w * 10 ^ F.scale) g = w * 10 ^ F.scale := by
  induction g with
  | zero => rfl
  | succ g ih =>
    have hG : 0 < 10 ^ (g + 1) := Nat.pow_pos (by decide)
    rw [shortestFrom]
    by_cases hdvd : 10 ^ (g + 1) ∣ w * 10 ^ F.scale
    · -- The number lies on the grid, and no other point is as near.
      rw [Nat.div_mul_cancel hdvd, if_pos (readsBack_whole hw), if_neg]
      rintro ⟨-, hnear⟩
      omega
    · -- The grid is too coarse for the number, so its points are whole multiples of ten.
      have hten : 10 * 10 ^ F.scale ∣ 10 ^ (g + 1) := by
        rw [← Nat.pow_succ']
        apply Nat.pow_dvd_pow
        by_contra hlt
        exact hdvd (Nat.dvd_trans (Nat.pow_dvd_pow 10 (by omega)) (Nat.dvd_mul_left _ w))
      have hnot : ∀ c, 10 ^ (g + 1) ∣ c → ¬ F.ReadsBack (w * 2 ^ F.scale) c := by
        intro c hc h
        rw [eq_of_readsBack_whole hp hw (Nat.dvd_trans hten hc) h] at hc
        exact hdvd hc
      have hbelow : 10 ^ (g + 1) ∣ w * 10 ^ F.scale / 10 ^ (g + 1) * 10 ^ (g + 1) :=
        Nat.dvd_mul_left _ _
      rw [if_neg (hnot _ hbelow), if_neg (hnot _ (Nat.dvd_add hbelow (Nat.dvd_refl _))), ih]

theorem whole_lt_of_readsBack {w n e : Nat} (hw : w ≤ 2 ^ F.precision) (he : F.ReadsBack n e)
    (h : w * 2 ^ F.scale < n) : w * 10 ^ F.scale < e := by
  apply Nat.lt_of_not_le
  intro hle
  have hround : F.round e (5 ^ F.scale) ≤ w * 2 ^ F.scale := by
    apply F.round_le (F.spacing_dvd_whole hw) (five_pow_pos F.scale)
    rwa [Nat.mul_assoc, ← ten_pow]
  rw [he] at hround
  exact Nat.not_lt_of_le hround h

theorem lt_whole_of_readsBack {w n e : Nat} (hw : w ≤ 2 ^ F.precision) (he : F.ReadsBack n e)
    (h : n < w * 2 ^ F.scale) : e < w * 10 ^ F.scale := by
  apply Nat.lt_of_not_le
  intro hle
  have hround : w * 2 ^ F.scale ≤ F.round e (5 ^ F.scale) := by
    apply F.le_round (F.spacing_dvd_whole hw) (five_pow_pos F.scale)
    rwa [Nat.mul_assoc, ← ten_pow]
  rw [he] at hround
  exact Nat.not_lt_of_le hround h

/-- **The shortest decimal has the whole part of the number**, as long as whole numbers are
magnitudes of the format. -/
theorem shortest_div_ten_pow (hp : 1 < F.precision) {n : Nat} (h : F.Representable n)
    (hn : n ≤ 2 ^ F.precision * 2 ^ F.scale) : F.shortest n / 10 ^ F.scale = n / 2 ^ F.scale := by
  have hlow := Nat.div_mul_le_self n (2 ^ F.scale)
  have hhigh : n < (n / 2 ^ F.scale + 1) * 2 ^ F.scale := by
    rw [Nat.mul_comm]
    exact Nat.lt_mul_div_succ n (Nat.two_pow_pos _)
  have hle : n / 2 ^ F.scale ≤ 2 ^ F.precision := Nat.div_le_of_le_mul (by rwa [Nat.mul_comm])
  generalize n / 2 ^ F.scale = w at hlow hhigh hle ⊢
  rcases Nat.eq_or_lt_of_le hlow with rfl | hlt
  · have hexact : w * 2 ^ F.scale * 5 ^ F.scale = w * 10 ^ F.scale := by
      rw [ten_pow, Nat.mul_assoc]
    rw [shortest, hexact, shortestFrom_whole hp hle,
      Nat.mul_div_cancel _ (Nat.pow_pos (by decide))]
  · have hsucc : w + 1 ≤ 2 ^ F.precision :=
      Nat.lt_of_mul_lt_mul_right (Nat.lt_of_lt_of_le hlt hn)
    have hread := readsBack_shortest h
    apply Nat.div_eq_of_lt_le
    · exact Nat.le_of_lt (whole_lt_of_readsBack hle hread hlt)
    · exact lt_whole_of_readsBack hsucc hread hhigh

/-! ## Positional text -/

/-- **Positional text writes its decimal**: the digits before the point and those kept behind it
stand for the same number. -/
theorem exists_positional {places : Nat} (hp : 0 < places) (e : Nat) :
    ∃ kept : List Char, (∀ d ∈ kept, d.isDigit = true) ∧
      positional e places = Digits.ofNat (e / 10 ^ places) ++ Text.fractionText kept ∧
        Digits.value (Digits.ofNat (e / 10 ^ places) ++ kept) * 10 ^ places =
          e * 10 ^ kept.length := by
  have hlt : e % 10 ^ places < 10 ^ places := Nat.mod_lt _ (Nat.pow_pos (by decide))
  generalize hfraction : List.replicate (places - (Digits.ofNat (e % 10 ^ places)).length) '0' ++
    Digits.ofNat (e % 10 ^ places) = fraction
  obtain ⟨hplaces, hdigits, hvalue⟩ := Digits.replicate_zero_append_ofNat hp hlt hfraction
  obtain ⟨zeros, hzeros⟩ := Digits.exists_trailing_zeros fraction
  refine ⟨(fraction.reverse.dropWhile (· == '0')).reverse, ?_, ?_, ?_⟩
  · intro d hd
    apply hdigits
    rw [hzeros]
    exact List.mem_append_left _ hd
  · rw [positional, hfraction]
    rfl
  · generalize (fraction.reverse.dropWhile (· == '0')).reverse = kept at hzeros ⊢
    have hkept : kept.length + zeros = places := by
      rw [← hplaces, hzeros, List.length_append, List.length_replicate]
    have hall : Digits.value (Digits.ofNat (e / 10 ^ places) ++ fraction) = e := by
      rw [Digits.value_append, Digits.value_ofNat, hplaces, hvalue]
      exact Nat.div_add_mod' e (10 ^ places)
    rw [hzeros, ← List.append_assoc, Digits.value_append, Digits.value_replicate_zero,
      List.length_replicate, Nat.add_zero] at hall
    calc Digits.value (Digits.ofNat (e / 10 ^ places) ++ kept) * 10 ^ places
        = Digits.value (Digits.ofNat (e / 10 ^ places) ++ kept) * 10 ^ zeros * 10 ^ kept.length := by
          rw [← hkept, Nat.pow_add]
          ac_rfl
      _ = e * 10 ^ kept.length := by rw [hall]

end BinaryFormat

end PercentFormat
