import PercentFormat.Proofs.LeadingNumber
import PercentFormat.Proofs.Rounding
import PercentFormat.Proofs.Substitution

/-!
# Integers and their decimal text

An integer that is given as an argument and the text that shows it are two ways to give the same
argument.  As a text, the integer is shown; as a number, the text is read.  A signed integer fits
the range that integers are read in, and reading it as a float rounds the same integer that the
number itself is rounded from, so no conversion tells the two apart, and none has anything to report.

## Main results

* `leadingInteger?_ofInt`, `leadingFloat?_ofInt`: decimal text is read as the integer it shows
* `run_showing_integer`: an integer can be given as the text that shows it
-/

namespace PercentFormat

namespace Digits

theorem ofInt_eq (i : Int) : ofInt i = Text.signText (decide (i < 0)) ++ ofNat i.natAbs := by
  by_cases h : i < 0 <;> simp [ofInt, Text.signText, h]

end Digits

theorem toString_int (i : Int) : toString i = String.ofList (Digits.ofInt i) := by
  cases i with
  | ofNat n => rfl
  | negSucc n =>
    rw [Digits.ofInt, if_pos (Int.negSucc_lt_zero n), String.ofList_cons]
    rfl

namespace Text

/-! ## Reading decimal text -/

/-- The decimal text of an integer is read as that integer, clamped. -/
theorem leadingInteger?_ofInt (i : Int) :
    leadingInteger? (Digits.ofInt i) = some (clampSigned i) := by
  have hend : ∀ d ∈ ([] : List Char).head?, d.isDigit = false := by simp
  have hread := leadingInteger?_digits (decide (i < 0)) (Digits.ofNat_ne_nil i.natAbs)
    (fun _ => Digits.isDigit_of_mem_ofNat) hend
  rw [List.append_nil, ← Digits.ofInt_eq, Digits.value_ofNat] at hread
  rw [hread]
  congr 2
  simp only [decide_eq_true_eq]
  split <;> omega

/-- The decimal text of an integer is read as the float nearest to that integer. -/
theorem leadingFloat?_ofInt (i : Int) : leadingFloat? (Digits.ofInt i) = some (.ofInt i) := by
  have hfraction : ∀ d ∈ ([] : List Char), d.isDigit = true := by simp
  have hread := leadingFloat?_decimal (decide (i < 0)) (Digits.ofNat_ne_nil i.natAbs)
    (fun _ => Digits.isDigit_of_mem_ofNat) hfraction
  rw [fractionText_nil, List.append_nil, ← Digits.ofInt_eq, Digits.value_ofNat,
    Floating.ofDecimal_places] at hread
  rw [hread]
  rfl

end Text

/-! ## Integers as arguments -/

/-- The argument `v` is the integer `i` to every conversion: as a text it is shown in decimal, as a
number it is `i` or the float nearest to it, and there is nothing to report. -/
structure Value.Gives (v : Value) (i : Int) : Prop where
  text : v.naturalText? = some (toString i)
  integer : v.toInteger = pure i
  float : v.toFloat = pure (.ofInt i)

namespace Value

theorem gives_int (i : Int64) : (int i).Gives i.toInt :=
  ⟨by rw [toString_int, naturalText?], rfl, rfl⟩

theorem gives_uint (u : UInt64) : (uint u).Gives u.toNat :=
  ⟨rfl, rfl, rfl⟩

section

variable {i : Int} (hlo : signedMin ≤ i) (hhi : i ≤ signedMax)

include hlo hhi

theorem gives_text : (text (toString i)).Gives i := by
  refine ⟨rfl, ?_, ?_⟩
  · rw [toInteger, toString_int, String.toList_ofList, Text.leadingInteger?_ofInt,
      clampSigned_eq_self hlo hhi]
  · rw [toFloat, toString_int, String.toList_ofList, Text.leadingFloat?_ofInt]

theorem gives_other : (other (toString i)).Gives i := by
  obtain ⟨htext, hinteger, hfloat⟩ := gives_text hlo hhi
  exact ⟨htext, hinteger, hfloat⟩

end

/-- No conversion tells two arguments apart that are the same integer to all of them. -/
theorem Gives.core_eq {v w : Value} {i : Int} (hv : v.Gives i) (hw : w.Gives i) (k : Conversion)
    (a : Attributes) (nilToken : String) : k.core a nilToken v = k.core a nilToken w := by
  cases k with
  | string | object => rw [Conversion.core, Conversion.core, hv.text, hw.text]
  | decimal => rw [Conversion.core, Conversion.core, hv.integer, hw.integer]
  | float => rw [Conversion.core, Conversion.core, hv.float, hw.float]

end Value

namespace Formatter

/-- **An integer can be given as the text that shows it.**  A signed integer, and an unsigned one
in the range of the signed, is as good as its decimal text: a call with one in the place of the
other has the same outcome and the same log, whatever the template asks for. -/
theorem run_showing_integer (f : Formatter) (template : String) (front back : List Value) :
    (∀ i : Int64,
      f.run template (front ++ .showing i :: back) = f.run template (front ++ .int i :: back) ∧
        f.run template (front ++ .text (toString i) :: back) =
          f.run template (front ++ .int i :: back)) ∧
    ∀ u : UInt64, (u.toNat : Int) ≤ signedMax →
      f.run template (front ++ .showing u :: back) = f.run template (front ++ .uint u :: back) ∧
        f.run template (front ++ .text (toString u) :: back) =
          f.run template (front ++ .uint u :: back) := by
  have hreplace : ∀ {v w : Value} {i : Int}, v.Gives i → w.Gives i →
      f.run template (front ++ v :: back) = f.run template (front ++ w :: back) := by
    intro v w i hv hw
    apply run_replace
    intro k _ a
    exact hv.core_eq hw k a f.nilToken
  refine ⟨?_, ?_⟩
  · intro i
    have hlo : signedMin ≤ i.toInt := i.le_toInt
    have hhi : i.toInt ≤ signedMax := Int.le_of_lt_add_one i.toInt_lt
    have hi := Value.gives_int i
    exact ⟨hreplace (Value.gives_other hlo hhi) hi, hreplace (Value.gives_text hlo hhi) hi⟩
  · intro u hhi
    have hlo : signedMin ≤ (u.toNat : Int) :=
      Int.le_trans (by decide) (Int.natCast_nonneg u.toNat)
    have hu := Value.gives_uint u
    exact ⟨hreplace (Value.gives_other hlo hhi) hu, hreplace (Value.gives_text hlo hhi) hu⟩

/-- The greatest integer that both signednesses share, next to the least signed one. -/
theorem run_showing_integer_bounds :
    ((9223372036854775807 : UInt64).toNat : Int) ≤ signedMax ∧
      ({} : Formatter).run "%+d %f" [.int (-9223372036854775808), .showing (9223372036854775807 : UInt64)] =
        ({} : Formatter).run "%+d %f" [.int (-9223372036854775808), .uint 9223372036854775807] := by
  have hu : ((9223372036854775807 : UInt64).toNat : Int) ≤ signedMax := by decide
  have hshowing := run_showing_integer {} "%+d %f" [.int (-9223372036854775808)] []
  exact ⟨hu, (hshowing.2 9223372036854775807 hu).1⟩

end Formatter

end PercentFormat
