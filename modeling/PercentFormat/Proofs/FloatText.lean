import PercentFormat.Proofs.ShortestText
import PercentFormat.Proofs.Substitution

/-!
# Floats and the text that shows them

Every float reads back from its text: a number has a sign, digits and perhaps a fraction, all of
them are recognised, and the decimal they write is the shortest one, which rounds to the number it
was taken from.  Infinities and NaN are words that the reader knows.  So a float can be given as the
text that shows it wherever it is shown or read as a float.

Where an integer is asked for, the number is truncated but the text is read up to its point.  The
two agree while the shortest decimal has the whole part of the number, which it has up to `2 ^ 53`.

## Main results

* `leadingFloat?_text`: the text of a float is read as that float
* `leadingInteger?_text`: the text of a number that is not too large is read as its whole part
* `run_showing_float`: a float can be given as the text that shows it
-/

namespace PercentFormat

namespace Floating

variable {F : BinaryFormat}

/-- The text of a finite number is a sign, the whole part of its shortest decimal, and a fraction;
the decimal they write is nearest to that number. -/
theorem exists_text (hs : 0 < F.scale) {n : Nat} (h : F.Representable n) (negative : Bool) :
    ∃ kept : List Char, (∀ d ∈ kept, d.isDigit = true) ∧
      (finite negative n h).text = Text.signText negative ++
        (Digits.ofNat (F.shortest n / 10 ^ F.scale) ++ Text.fractionText kept) ∧
      ofDecimal negative (Digits.value (Digits.ofNat (F.shortest n / 10 ^ F.scale) ++ kept))
        (0 - kept.length) = finite negative n h := by
  obtain ⟨kept, hkept, htext, hvalue⟩ := BinaryFormat.exists_positional hs (F.shortest n)
  refine ⟨kept, hkept, ?_, ?_⟩
  · rw [← htext]
    cases negative <;> rfl
  · have hround : F.round
        (Digits.value (Digits.ofNat (F.shortest n / 10 ^ F.scale) ++ kept) * 2 ^ F.scale)
        (10 ^ kept.length) = n := by
      rw [F.round_eq_of_mul_eq (Nat.pow_pos (by decide)) (BinaryFormat.five_pow_pos F.scale)]
      · exact BinaryFormat.readsBack_shortest h
      · rw [Nat.mul_assoc, ← BinaryFormat.ten_pow, hvalue]
    rw [ofDecimal_places, hround, ofUnits_of_representable negative h]

end Floating

theorem toString_floating {F : BinaryFormat} (x : Floating F) :
    toString x = String.ofList x.text := rfl

namespace Text

/-- **The text of a number is read as that number.** -/
theorem leadingFloat?_text (x : Binary64) : leadingFloat? x.text = some x := by
  cases x with
  | nan => rfl
  | infinity negative => cases negative <;> rfl
  | finite negative n h =>
    obtain ⟨kept, hkept, htext, hread⟩ := Floating.exists_text (by decide) h negative
    rw [htext, leadingFloat?_decimal negative (Digits.ofNat_ne_nil _)
      (fun _ => Digits.isDigit_of_mem_ofNat) hkept, hread]

end Text

namespace Floating

variable {F : BinaryFormat}

/-- Finite, and of a magnitude that does not exceed `m`. -/
inductive AtMost (m : Nat) : Floating F → Prop
  | finite {negative : Bool} {n : Nat} {h : F.Representable n} (hn : n ≤ m * 2 ^ F.scale) :
      AtMost m (finite negative n h)

instance (m : Nat) (x : Floating F) : Decidable (x.AtMost m) :=
  match x with
  | finite _ n _ => decidable_of_iff (n ≤ m * 2 ^ F.scale) ⟨.finite, fun ⟨hn⟩ => hn⟩
  | infinity _ | nan => isFalse nofun

/-- **The text of a number is read as its whole part**, unless the number is so large that its
format has not all whole numbers of its size. -/
theorem leadingInteger?_text (hs : 0 < F.scale) (hp : 1 < F.precision) {x : Floating F}
    (hx : x.AtMost (2 ^ F.precision)) : Text.leadingInteger? x.text = some x.toSigned := by
  obtain @⟨negative, n, h, hn⟩ := hx
  obtain ⟨kept, -, htext, -⟩ := exists_text hs h negative
  have hwhole := BinaryFormat.shortest_div_ten_pow hp h hn
  rw [htext, Text.leadingInteger?_digits negative (Digits.ofNat_ne_nil _)
    (fun _ => Digits.isDigit_of_mem_ofNat) (Text.head?_fractionText kept), Digits.value_ofNat,
    hwhole]
  rfl

end Floating

namespace Formatter

/-- **A float can be given as the text that shows it**, to every directive but `%d`, and to `%d`
too if its magnitude does not exceed `2 ^ 53`.  The call has the same outcome and the same log. -/
theorem run_showing_float (f : Formatter) (template : String) (front back : List Value)
    (x : Binary64)
    (h : ¬ (Template.parse template.toList).Selects .decimal front.length ∨
      x.AtMost (2 ^ (53 : Nat))) :
    f.run template (front ++ .showing x :: back) = f.run template (front ++ .float x :: back) := by
  apply run_replace
  intro k hk a
  cases k with
  | string | object => rfl
  | decimal =>
    -- A directive asks for the integer, so the number is one whose whole part is in its text.
    have hsmall : x.AtMost (2 ^ (53 : Nat)) := h.resolve_left (not_not_intro hk)
    have hread := Floating.leadingInteger?_text (by decide) (by decide) hsmall
    rw [Conversion.core, Conversion.core, Value.showing, Value.toInteger, Value.toInteger,
      toString_floating, String.toList_ofList, hread]
  | float =>
    rw [Conversion.core, Conversion.core, Value.showing, Value.toFloat, Value.toFloat,
      toString_floating, String.toList_ofList, Text.leadingFloat?_text]

/-- The float just below `3`, shown, truncated and rounded. -/
theorem run_showing_float_below_three :
    (.ofDecimal false 29999999999999996 (-16) : Binary64).AtMost (2 ^ (53 : Nat)) ∧
      ({} : Formatter).run "%1$s %1$d %1$.3f"
          [.showing (.ofDecimal false 29999999999999996 (-16) : Binary64)] =
        ({} : Formatter).run "%1$s %1$d %1$.3f"
          [.float (.ofDecimal false 29999999999999996 (-16))] := by
  have hx : (.ofDecimal false 29999999999999996 (-16) : Binary64).AtMost (2 ^ (53 : Nat)) := by
    decide +kernel
  exact ⟨hx, run_showing_float {} "%1$s %1$d %1$.3f" [] [] _ (.inr hx)⟩

end Formatter

end PercentFormat
