import Mathlib.Algebra.Order.Field.Rat
import Mathlib.Data.Rat.Floor
import PercentFormat.Proofs.Rounding

/-!
# The exact value of a number

A finite number of a binary format is a rational number, and its two parts, left and right of the
point, are those of that rational number: taking a number apart rounds nothing.  The reason is that
the spacing of a number and the magnitude of one are both powers of two, so one divides the other.
Either the point lies between two of the bits that the number has, and both parts are multiples of
its spacing, or all of its bits are left of the point, and it is whole.

Zero has two signs and one exact value.

## Main definitions

* `Floating.toRat?`: the exact value of a finite number
* `Floating.IsPositive`: above zero, finite or not

## Main results

* `Representable.whole`, `Representable.fraction`: both parts of a magnitude are magnitudes
-/

namespace PercentFormat

namespace BinaryFormat

variable {F : BinaryFormat} {n : Nat}

theorem Representable.of_spacing_dvd (h : F.Representable n) {m : Nat} (hm : m ≤ n)
    (hdvd : F.spacing n ∣ m) : F.Representable m :=
  ⟨Nat.lt_of_le_of_lt hm h.1, Nat.dvd_trans (F.spacing_dvd_spacing hm) hdvd⟩

/-- The point lies between two bits of a magnitude, or the magnitude is whole. -/
theorem Representable.spacing_dvd_or_dvd (h : F.Representable n) :
    F.spacing n ∣ 2 ^ F.scale ∨ 2 ^ F.scale ∣ n := by
  rcases Nat.le_total (n.log2 - (F.precision - 1)) F.scale with hle | hle
  · exact Or.inl (Nat.pow_dvd_pow 2 hle)
  · exact Or.inr (Nat.dvd_trans (Nat.pow_dvd_pow 2 hle) h.2)

theorem Representable.whole (h : F.Representable n) :
    F.Representable (n / 2 ^ F.scale * 2 ^ F.scale) := by
  rcases h.spacing_dvd_or_dvd with hdvd | hdvd
  · exact h.of_spacing_dvd (Nat.div_mul_le_self _ _) (Nat.dvd_trans hdvd (Nat.dvd_mul_left _ _))
  · rwa [Nat.div_mul_cancel hdvd]

theorem Representable.fraction (h : F.Representable n) : F.Representable (n % 2 ^ F.scale) := by
  rcases h.spacing_dvd_or_dvd with hdvd | hdvd
  · exact h.of_spacing_dvd (Nat.mod_le _ _) ((Nat.dvd_mod_iff hdvd).mpr h.2)
  · rw [Nat.mod_eq_zero_of_dvd hdvd]
    exact F.representable_zero

end BinaryFormat

namespace Floating

variable {F : BinaryFormat}

/-! ## The parts of a number -/

theorem whole_finite (s : Bool) {n : Nat} (h : F.Representable n) :
    (finite s n h).whole = finite s (n / 2 ^ F.scale * 2 ^ F.scale) h.whole :=
  ofUnits_of_representable s h.whole

theorem fraction_finite (s : Bool) {n : Nat} (h : F.Representable n) :
    (finite s n h).fraction = finite s (n % 2 ^ F.scale) h.fraction :=
  ofUnits_of_representable s h.fraction

theorem whole_abs (x : Floating F) : x.abs.whole = x.whole.abs := by
  cases x with
  | nan => rfl
  | infinity s => rfl
  | finite s n h =>
    rw [abs, whole_finite, whole_finite]
    rfl

theorem fraction_abs (x : Floating F) : x.abs.fraction = x.fraction.abs := by
  cases x with
  | nan => rfl
  | infinity s => rfl
  | finite s n h =>
    rw [abs, fraction_finite, fraction_finite]
    rfl

theorem ofInt_of_representable {i : Int} (h : F.Representable (i.natAbs * 2 ^ F.scale)) :
    (ofInt i : Floating F) = finite (decide (i < 0)) (i.natAbs * 2 ^ F.scale) h := by
  have hround : F.round (i.natAbs * 2 ^ F.scale) 1 = i.natAbs * 2 ^ F.scale := by
    simpa using F.round_exact h Nat.one_pos
  rw [ofInt, hround, ofUnits_of_representable _ h]

/-! ## Exact values -/

/-- The exact value of a finite number.  What is not finite has none. -/
def toRat? : Floating F → Option ℚ
  | finite s n _ => some (if s then -(n / 2 ^ F.scale : ℚ) else n / 2 ^ F.scale)
  | _ => none

theorem isFinite_iff (x : Floating F) : x.isFinite = true ↔ ∃ q, x.toRat? = some q := by
  cases x <;> simp [isFinite, toRat?]

theorem exists_finite_of_toRat? {x : Floating F} {q : ℚ} (h : x.toRat? = some q) :
    ∃ s n hn, x = finite s n hn ∧ |q| = n / 2 ^ F.scale ∧ q = if s then -|q| else |q| := by
  cases x with
  | nan => cases h
  | infinity s => cases h
  | finite s n hn =>
    have hpos : (0 : ℚ) ≤ n / 2 ^ F.scale := by positivity
    obtain rfl := Option.some.inj h
    refine ⟨s, n, hn, rfl, ?_, ?_⟩
    · cases s <;> simp [abs_of_nonneg hpos]
    · cases s <;> simp [abs_of_nonneg hpos]

/-- Above zero: infinity, and every finite number whose exact value is. -/
def IsPositive (x : Floating F) : Prop :=
  x = infinity false ∨ ∃ q, x.toRat? = some q ∧ 0 < q

theorem isPositive_iff (x : Floating F) : x.IsPositive ↔ x.neg.isNegative = true := by
  cases x with
  | nan => simp [IsPositive, neg, isNegative, toRat?]
  | infinity s => cases s <;> simp [IsPositive, neg, isNegative, toRat?]
  | finite s n h =>
    have hpos : (0 : ℚ) ≤ n / 2 ^ F.scale := by positivity
    cases s with
    | false => simp [IsPositive, neg, isNegative, toRat?, Nat.pos_iff_ne_zero]
    | true => simp [IsPositive, neg, isNegative, toRat?, hpos]

instance (x : Floating F) : Decidable x.IsPositive :=
  decidable_of_iff _ x.isPositive_iff.symm

theorem isNegative_of_neg {x : Floating F} (h : x.neg.isNegative = true) :
    x.isNegative = false := by
  cases x with
  | nan => rfl
  | infinity s => simpa [neg, isNegative] using h
  | finite s n hn =>
    cases s with
    | false => rfl
    | true => cases h

end Floating

end PercentFormat
