import PercentFormat.Text.ByteLength

/-!
# Runs of decimal digits

Digits are the characters `0` to `9`, no others.  A run of digits stands for a number in two
ways here: exactly, where the number is needed whatever its size, and saturated at a bound,
where it has to fit a machine word.  Saturation is applied digit by digit, so the running value
never grows with the text; `saturated_eq_min` says that this is one clamp of the exact value.

## Main definitions

* `Digits.ofNat`, `Digits.ofInt`: the decimal text of a number
* `Digits.value`: the number a run of digits stands for
* `Digits.saturated`: the same, kept at or below a bound

## Main results

* `value_ofNat`: decimal text reads back
* `saturated_eq_min`: saturating at every digit is clamping the value once
-/

namespace PercentFormat

namespace Digits

/-- The decimal text of a natural number, without leading zeros. -/
def ofNat (n : Nat) : List Char :=
  Nat.toDigits 10 n

/-- The decimal text of an integer: the digits of its magnitude, after a `-` when it is below
zero. -/
def ofInt (i : Int) : List Char :=
  if i < 0 then '-' :: ofNat i.natAbs else ofNat i.natAbs

/-- The number a run of digits stands for; no digits stand for zero. -/
def value (ds : List Char) : Nat :=
  Nat.ofDigitChars 10 ds 0

/-- The number a run of digits stands for, held at `bound` from the digit on that exceeds it. -/
def saturated (bound : Nat) (ds : List Char) : Nat :=
  ds.foldl (fun n c => min (10 * n + (c.toNat - '0'.toNat)) bound) 0

theorem isDigit_iff {d : Char} : d.isDigit = true ↔ '0' ≤ d ∧ d ≤ '9' := by
  simp [Char.isDigit, Char.le_def]

theorem isDigit_of_mem_ofNat {n : Nat} {c : Char} (h : c ∈ ofNat n) : c.isDigit = true :=
  Nat.isDigit_of_mem_toDigits (by decide) (by decide) h

theorem byteLength_eq_length {ds : List Char} (h : ∀ d ∈ ds, d.isDigit = true) :
    Text.byteLength ds = ds.length := by
  induction ds with
  | nil => rfl
  | cons d ds ih =>
    have hsize : d.utf8Size = 1 := by
      rw [Char.utf8Size_eq_one_iff]
      exact UInt32.le_trans (isDigit_iff.mp (h d List.mem_cons_self)).2 (by decide)
    rw [Text.byteLength_cons, hsize, ih fun e he => h e (List.mem_cons_of_mem _ he),
      List.length_cons, Nat.add_comm]

/-- The decimal text of a number reads back as that number. -/
@[simp] theorem value_ofNat (n : Nat) : value (ofNat n) = n :=
  Nat.ofDigitChars_toDigits (by decide) (by decide)

theorem foldl_min_eq (bound : Nat) (ds : List Char) (n : Nat) :
    ds.foldl (fun n c => min (10 * n + (c.toNat - '0'.toNat)) bound) (min n bound) =
      min (Nat.ofDigitChars 10 ds n) bound := by
  induction ds generalizing n with
  | nil => rfl
  | cons c ds ih =>
    rw [List.foldl_cons, Nat.ofDigitChars_cons, ← ih]
    congr 1
    omega

/-- **Saturating at every digit is clamping once.**  However long the run, the outcome is the
smaller of its exact value and the bound. -/
theorem saturated_eq_min (bound : Nat) (ds : List Char) :
    saturated bound ds = min (value ds) bound := by
  have h := foldl_min_eq bound ds 0
  rwa [Nat.zero_min] at h

end Digits

end PercentFormat
