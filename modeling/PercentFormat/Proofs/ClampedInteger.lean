import PercentFormat.Proofs.Meaning
import PercentFormat.Proofs.NumberGrammar

/-!
# The integer at the head of a text

A text that is asked for an integer is taken apart at its head: all blanks, at most one sign, and all
digits.  Its integer is the number of the digits, with that sign, and clamped once to 64 bits, however
many digits there are.  That is so although saturation is applied at every digit, since the running
value moves away from zero on one side only.  The two sides have different bounds, and the sign says
which of them counts.

## Main definitions

* `Text.IntegerHead`: the sign and the digits at the head of a text

## Main results

* `exists_integerHead`, `IntegerHead.exists_takeSign`: every text has a head, and `takeSign` splits it off
* `outcome_render_plain`: `%d` without flags and width shows the integer that a value counts as
* `leadingInteger?_clamped`: the integer is the number at the head, clamped
-/

namespace PercentFormat

namespace Text

/-! ## The head of a text -/

/-- The parts of a text that an integer is read from: behind all its blanks, at most one sign, and
behind that, all digits.  No part could be longer. -/
inductive IntegerHead (text : List Char) (negative : Bool) (digits : List Char) : Prop
  | mk {blanks sign rest : List Char} (htext : text = blanks ++ (sign ++ (digits ++ rest)))
    (hblanks : ∀ c ∈ blanks, isBlank c = true)
    (hnoblank : ∀ c ∈ (sign ++ (digits ++ rest)).head?, isBlank c = false)
    (hsign : IsSign negative sign)
    (hnosign : sign = [] → ∀ c ∈ (digits ++ rest).head?, c ≠ '-' ∧ c ≠ '+')
    (hdigits : ∀ d ∈ digits, d.isDigit = true)
    (hnodigit : ∀ d ∈ rest.head?, d.isDigit = false)

theorem head?_ne_of_takeSign_eq {s : List Char} (h : (takeSign s).2 = s) :
    ∀ c ∈ s.head?, c ≠ '-' ∧ c ≠ '+' := by
  unfold takeSign at h
  split at h
  · exact absurd h.symm (List.cons_ne_self _ _)
  · exact absurd h.symm (List.cons_ne_self _ _)
  next hminus hplus =>
    intro c hc
    obtain ⟨t, rfl⟩ := List.head?_eq_some_iff.mp hc
    exact ⟨fun h => hminus t (h ▸ rfl), fun h => hplus t (h ▸ rfl)⟩

/-- Every text has a head. -/
theorem exists_integerHead (text : List Char) :
    ∃ negative digits, IntegerHead text negative digits := by
  obtain ⟨sign, hsign, hs⟩ := exists_sign (dropBlanks text)
  have hsplit := List.takeWhile_append_dropWhile (p := Char.isDigit)
    (l := (takeSign (dropBlanks text)).2)
  have hnoblank : ∀ c ∈ (dropBlanks text).head?, isBlank c = false := head?_dropWhile isBlank text
  rw [hs] at hnoblank
  -- The parts are those that the reader splits off, so none of them could be longer.
  refine ⟨_, (takeSign (dropBlanks text)).2.takeWhile Char.isDigit,
    @IntegerHead.mk _ _ _ (text.takeWhile isBlank) sign
      ((takeSign (dropBlanks text)).2.dropWhile Char.isDigit) ?_ ?_ ?_ hsign ?_ ?_ ?_⟩
  · rw [hsplit, ← hs, dropBlanks, List.takeWhile_append_dropWhile]
  · exact fun c hc => List.mem_takeWhile_imp hc
  · rwa [hsplit]
  · rintro rfl
    have hself : (takeSign (dropBlanks text)).2 = dropBlanks text := hs.symm
    rw [hsplit, hself]
    exact head?_ne_of_takeSign_eq hself
  · exact fun c hc => List.mem_takeWhile_imp hc
  · exact head?_dropWhile Char.isDigit _

/-- No text has two heads: the readers take it apart in this way and no other. -/
theorem IntegerHead.exists_takeSign {text : List Char} {negative : Bool} {digits : List Char}
    (h : IntegerHead text negative digits) :
    ∃ s, takeSign (dropBlanks text) = (negative, s) ∧ s.takeWhile Char.isDigit = digits := by
  obtain @⟨blanks, sign, rest, rfl, hblanks, hnoblank, hsign, hnosign, hdigits, hnodigit⟩ := h
  refine ⟨digits ++ rest, ?_, (takeWhile_exact hdigits hnodigit).1⟩
  rw [dropBlanks_append hblanks hnoblank]
  -- Only where no sign is written could the reader mistake what follows for one.
  cases hsign with
  | absent => exact takeSign_eq_self (hnosign rfl)
  | plus => rfl
  | minus => rfl

end Text

namespace Conversion

/-- Without flags and width, an integer is shown as its digits, behind a `-` if it is negative. -/
theorem outcome_render_plain {a : Attributes} (hflags : a.flags = {}) (hwidth : a.width = 0)
    (nilToken : String) (v : Value) :
    (decimal.render a nilToken v).outcome = .ok (Digits.ofInt v.asInteger) := by
  have hsign : a.numberSign = [] := by rw [Attributes.numberSign, hflags]; rfl
  have hcore : decimal.coreText a nilToken v = Digits.ofInt v.asInteger := by
    rw [coreText, Attributes.integerText, hsign, List.nil_append, ite_self]
  have hpadded : a.padded (Digits.ofInt v.asInteger) = Digits.ofInt v.asInteger := by
    rw [Attributes.padded, hflags, hwidth, Nat.zero_sub]
    rfl
  have hfits : a.Fits (decimal.coreText a nilToken v) := by
    intro hlt
    rw [hwidth] at hlt
    exact absurd hlt (Nat.not_lt_zero _)
  rw [outcome_render, if_pos hfits, rendered, hcore, hpadded]
  rfl

end Conversion

theorem Text.leadingInteger?_range (text : List Char) :
    signedMin ≤ (leadingInteger? text).getD 0 ∧ (leadingInteger? text).getD 0 ≤ signedMax := by
  rcases hsplit : takeSign (dropBlanks text) with ⟨negative, s⟩
  rw [leadingInteger?_eq_clampSigned hsplit]
  by_cases hdigits : s.takeWhile Char.isDigit = []
  · rw [if_pos hdigits]
    exact ⟨by decide, by decide⟩
  · rw [if_neg hdigits, Option.getD_some]
    exact ⟨signedMin_le_clampSigned _, clampSigned_le_signedMax _⟩

theorem Digits.byteLength_ofInt_le {i : Int} (hlo : signedMin ≤ i) (hhi : i ≤ signedMax) :
    Text.byteLength (ofInt i) ≤ textCapacity := by
  have hlength : (ofNat i.natAbs).length ≤ 19 := by
    refine (Nat.length_toDigits_le_iff (by decide) (by decide)).mpr ?_
    unfold signedMin at hlo
    unfold signedMax at hhi
    omega
  have hbytes := byteLength_eq_length fun d => isDigit_of_mem_ofNat (n := i.natAbs) (c := d)
  unfold ofInt textCapacity
  split
  · rw [Text.byteLength_cons, hbytes, show ('-' : Char).utf8Size = 1 from rfl]
    omega
  · omega

/-- `%d` alone shows the integer at the head of a text, and of anything that is shown so. -/
theorem Formatter.format_decimal_text (f : Formatter) {s : String} {v : Value}
    (hv : v = .text s ∨ v = .other s) :
    f.format "%d" [v] =
      .ok (String.ofList (Digits.ofInt ((Text.leadingInteger? s.toList).getD 0))) := by
  have hvalue : v.asInteger = (Text.leadingInteger? s.toList).getD 0 := by
    rcases hv with rfl | rfl <;> rfl
  obtain ⟨hlo, hhi⟩ := Text.leadingInteger?_range s.toList
  rw [← hvalue] at hlo hhi ⊢
  have hformat := f.format_directive (s := ⟨none, [], none, none⟩) rfl
    (Conversion.outcome_render_plain rfl rfl f.nilToken v) (Digits.byteLength_ofInt_le hlo hhi)
  exact hformat

namespace Text

/-- **The integer at the head of a text is the number of its digits, with its sign, clamped once.**
There is none exactly if there are no digits.  So `%d` without flags and width shows that number for
a text, and for anything that is shown so, and zero where there are no digits; also if the directive
has an index or a precision. -/
theorem leadingInteger?_clamped (s : String) :
    (∃ negative digits, IntegerHead s.toList negative digits) ∧
      ∀ negative digits, IntegerHead s.toList negative digits →
        (leadingInteger? s.toList =
            if digits = [] then none
            else some (clampSigned
              (if negative then -(Digits.value digits : Int) else Digits.value digits))) ∧
          ∀ v, v = .text s ∨ v = .other s →
            (∀ (a : Attributes) (nilToken : String), a.flags = {} → a.width = 0 →
              (Conversion.decimal.render a nilToken v).outcome =
                .ok (Digits.ofInt ((leadingInteger? s.toList).getD 0))) ∧
            ∀ f : Formatter, f.format "%d" [v] =
              .ok (String.ofList (Digits.ofInt ((leadingInteger? s.toList).getD 0))) := by
  refine ⟨exists_integerHead _, ?_⟩
  intro negative digits hhead
  obtain ⟨rest, hsplit, hdigits⟩ := hhead.exists_takeSign
  refine ⟨?_, ?_⟩
  · rw [leadingInteger?_eq_clampSigned hsplit, hdigits]
  · intro v hv
    have hvalue : v.asInteger = (leadingInteger? s.toList).getD 0 := by
      rcases hv with rfl | rfl <;> rfl
    refine ⟨fun a nilToken hflags hwidth => ?_, fun f => f.format_decimal_text hv⟩
    rw [← hvalue, Conversion.outcome_render_plain hflags hwidth]

/-- Just below the least integer, with zeros in front, behind blanks, and in front of a text. -/
theorem leadingInteger?_clamped_below :
    IntegerHead "\n\x0c -0009223372036854775809x7".toList true "0009223372036854775809".toList ∧
      leadingInteger? "\n\x0c -0009223372036854775809x7".toList = some (-9223372036854775808) ∧
      (Conversion.decimal.render { precision := some 3 } "(nil)"
        (.other "\n\x0c -0009223372036854775809x7")).outcome = .ok "-9223372036854775808".toList ∧
      ({} : Formatter).format "%d" [.text "\n\x0c -0009223372036854775809x7"] =
        .ok "-9223372036854775808" := by
  have hhead : IntegerHead "\n\x0c -0009223372036854775809x7".toList true
      "0009223372036854775809".toList := by
    refine @IntegerHead.mk _ _ _ "\n\x0c ".toList ['-'] "x7".toList rfl ?_ ?_ .minus nofun ?_ ?_
      <;> simp [isBlank]
  obtain ⟨hinteger, hshows⟩ := (leadingInteger?_clamped _).2 _ _ hhead
  have hvalue : leadingInteger? "\n\x0c -0009223372036854775809x7".toList =
      some (-9223372036854775808) := by
    rw [hinteger]
    decide
  rw [hvalue] at hshows
  exact ⟨hhead, hvalue, (hshows _ (Or.inr rfl)).1 _ _ rfl rfl, (hshows _ (Or.inl rfl)).2 _⟩

end Text

end PercentFormat
