/-!
# Binary floating-point formats

A binary floating-point format keeps a bounded number of significant bits and a bounded range
of exponents.  Its finite magnitudes all are whole multiples of one least positive magnitude,
the *unit* of the format, so this library measures a magnitude by a natural number: how many
units it is.  In `binary64` the number one is `2 ^ 1074` units.

## Main definitions

* `BinaryFormat`: precision, unit and range of a format; `binary64` and `binary32`
* `BinaryFormat.Representable F n`: `n` units are a magnitude of the format
* `BinaryFormat.round F n d`: `n / d` units, rounded to the nearest magnitude, ties to even

## Main results

* `round_exact`: a magnitude of the format is its own rounding
* `spacing_dvd_round`: what `round` gives keeps to the significant bits of the format
-/

namespace PercentFormat

-- Powers of natural numbers are those of `Nat` itself, whatever others an import may offer.
attribute [scoped instance (2000)] instPowNat

/-- A binary floating-point format. -/
structure BinaryFormat where
  /-- How many significant bits a number has. -/
  precision : Nat
  /-- The unit, the least positive magnitude, is `2 ^ (-scale)`. -/
  scale : Nat
  /-- Finite magnitudes are below `2 ^ limit` units. -/
  limit : Nat
deriving DecidableEq, Repr

namespace BinaryFormat

/-- The 64-bit interchange format: 53 significant bits, magnitudes below `2 ^ 1024`. -/
def binary64 : BinaryFormat := ⟨53, 1074, 2098⟩

/-- The 32-bit interchange format: 24 significant bits, magnitudes below `2 ^ 128`. -/
def binary32 : BinaryFormat := ⟨24, 149, 277⟩

variable (F : BinaryFormat)

/-- The distance, in units, between neighbouring magnitudes in the binade of `n` units.  It is
one unit until the significant bits are used up and doubles with every further bit. -/
def spacing (n : Nat) : Nat :=
  2 ^ (n.log2 - (F.precision - 1))

theorem spacing_pos (n : Nat) : 0 < F.spacing n :=
  Nat.two_pow_pos _

/-- `n` units are a finite magnitude of the format: in range, and a multiple of the spacing of
their binade. -/
def Representable (n : Nat) : Prop :=
  n < 2 ^ F.limit ∧ F.spacing n ∣ n

instance (n : Nat) : Decidable (F.Representable n) :=
  inferInstanceAs (Decidable (_ ∧ _))

theorem representable_zero : F.Representable 0 :=
  ⟨Nat.two_pow_pos _, Nat.dvd_zero _⟩

/-! ## Rounding

A quotient is rounded in two moves: find the spacing of the binade it lies in, then take the
nearest multiple of that spacing.  A quotient just below a power of two may round up to that
power; it is a multiple of the wider spacing too, so no third move is needed. -/

/-- The whole number nearest to `a / b`; a half goes to the even neighbour. -/
def nearestEven (a b : Nat) : Nat :=
  if 2 * (a % b) < b then a / b
  else if b < 2 * (a % b) then a / b + 1
  else a / b + a / b % 2

theorem nearestEven_mul_left (q : Nat) {b : Nat} (hb : 0 < b) : nearestEven (q * b) b = q := by
  simp [nearestEven, Nat.mul_mod_left, Nat.mul_div_cancel _ hb, hb]

/-- `n / d` units rounded to the significant bits of the format, ties to even.  The range is
not looked at: a result of `2 ^ limit` units or more stands for an overflow. -/
def round (n d : Nat) : Nat :=
  nearestEven n (d * F.spacing (n / d)) * F.spacing (n / d)

theorem spacing_dvd_round (n d : Nat) : F.spacing (n / d) ∣ F.round n d :=
  Nat.dvd_mul_left _ _

/-- A magnitude of the format is its own rounding. -/
theorem round_exact {n d : Nat} (hn : F.Representable n) (hd : 0 < d) :
    F.round (n * d) d = n := by
  obtain ⟨k, hk⟩ := hn.2
  have hs := F.spacing_pos n
  unfold round
  rw [Nat.mul_div_cancel _ hd]
  have : n * d = k * (d * F.spacing n) := by
    conv => lhs; rw [hk]
    ac_rfl
  rw [this, nearestEven_mul_left k (Nat.mul_pos hd hs), Nat.mul_comm, ← hk]

end BinaryFormat

end PercentFormat
