import Mathlib.Data.List.Basic
import PercentFormat.Text.LeadingFloat
import PercentFormat.Text.LeadingInteger

/-!
# Reading a written number back

What a number is written as, a sign and digits and perhaps a fraction, is a number at the head of a
text, and it is read as far as it was written.  The two readers share all but the end: where a
digit stands first, there are no blanks to skip, the sign in front of it is taken, and none of the
words for what is no number begins there.

## Main definitions

* `Text.signText`, `Text.fractionText`: the parts of a written number that may be empty

## Main results

* `leadingInteger?_eq_clampSigned`: saturating at every digit is clamping once
* `leadingInteger?_digits`: a sign and digits are read as their number, clamped
* `leadingFloat?_decimal`: a sign, digits and a fraction are read as the number nearest to them
-/

namespace PercentFormat

namespace Digits

theorem ofNat_ne_nil (n : Nat) : ofNat n ≠ [] :=
  Nat.toDigits_ne_nil

/-- Digits in front of others count for as many tens more as there are others. -/
theorem value_append (ds es : List Char) :
    value (ds ++ es) = value ds * 10 ^ es.length + value es := by
  rw [value, Nat.ofDigitChars_append, Nat.ofDigitChars_eq_ofDigitChars_zero, Nat.mul_comm]
  rfl

end Digits

namespace Text

/-! ## What stands first -/

/-- A digit stands at the head of a text. -/
def BeginsWithDigit (s : List Char) : Prop :=
  ∃ d ∈ s.head?, d.isDigit = true

theorem beginsWithDigit_append {ds : List Char} (hne : ds ≠ [])
    (hd : ∀ d ∈ ds, d.isDigit = true) (rest : List Char) : BeginsWithDigit (ds ++ rest) := by
  cases ds with
  | nil => exact absurd rfl hne
  | cons d ds => exact ⟨d, rfl, hd d List.mem_cons_self⟩

theorem BeginsWithDigit.isDigit {s : List Char} (h : BeginsWithDigit s) :
    ∀ c ∈ s.head?, c.isDigit = true := by
  obtain ⟨d, hd, hdigit⟩ := h
  intro c hc
  obtain rfl : d = c := Option.some.inj (hd.symm.trans hc)
  exact hdigit

theorem BeginsWithDigit.head?_ne {s : List Char} (h : BeginsWithDigit s) :
    ∀ c ∈ s.head?, c ≠ '-' ∧ c ≠ '+' := by
  intro c hc
  have hdigit := h.isDigit c hc
  constructor <;> rintro rfl <;> cases hdigit

theorem takeWhile_exact {p : Char → Bool} {cs rest : List Char} (hcs : ∀ c ∈ cs, p c = true)
    (hrest : ∀ c ∈ rest.head?, p c = false) :
    (cs ++ rest).takeWhile p = cs ∧ (cs ++ rest).dropWhile p = rest := by
  rw [List.takeWhile_append_of_pos hcs, List.dropWhile_append_of_pos hcs]
  cases rest with
  | nil => simp
  | cons c rest => simp [hrest c rfl]

theorem takeWhile_all {p : Char → Bool} {cs : List Char} (hcs : ∀ c ∈ cs, p c = true) :
    cs.takeWhile p = cs ∧ cs.dropWhile p = [] := by
  have h := takeWhile_exact hcs (show ∀ c ∈ ([] : List Char).head?, p c = false by simp)
  rwa [List.append_nil] at h

theorem dropBlanks_append {blanks rest : List Char} (hblanks : ∀ c ∈ blanks, isBlank c = true)
    (hrest : ∀ c ∈ rest.head?, isBlank c = false) : dropBlanks (blanks ++ rest) = rest :=
  (takeWhile_exact hblanks hrest).2

theorem takeSign_eq_self {s : List Char} (h : ∀ c ∈ s.head?, c ≠ '-' ∧ c ≠ '+') :
    takeSign s = (false, s) := by
  cases s with
  | nil => rfl
  | cons c s =>
    obtain ⟨hminus, hplus⟩ := h c rfl
    simp [takeSign, hminus, hplus]

/-- What stands in front of the digits of a number. -/
def signText (negative : Bool) : List Char :=
  if negative then ['-'] else []

theorem isBlank_of_isDigit {d : Char} (h : d.isDigit = true) : isBlank d = false := by
  by_contra hb
  simp only [isBlank, Bool.not_eq_false, Bool.or_eq_true, beq_iff_eq] at hb
  rcases hb with (((rfl | rfl) | rfl) | rfl) | rfl <;> exact absurd h (by decide)

theorem toLower_of_isDigit {d : Char} (h : d.isDigit = true) : d.toLower = d := by
  have hnine : d ≤ '9' := (Digits.isDigit_iff.mp h).2
  refine dif_neg ?_
  rintro ⟨hA, -⟩
  exact absurd (UInt32.le_trans hA hnine) (by decide)

theorem toLower_ne_of_isDigit {d w : Char} (h : d.isDigit = true) (hw : w.isDigit = false) :
    d.toLower ≠ w := by
  rintro rfl
  rw [toLower_of_isDigit h, h] at hw
  cases hw

section

variable {s : List Char}

theorem dropBlanks_signText (h : BeginsWithDigit s) (negative : Bool) :
    dropBlanks (signText negative ++ s) = signText negative ++ s := by
  cases negative with
  | true => rfl
  | false =>
    refine dropBlanks_append (List.forall_mem_nil _) fun c hc => ?_
    exact isBlank_of_isDigit (h.isDigit c hc)

theorem takeSign_signText (h : BeginsWithDigit s) (negative : Bool) :
    takeSign (signText negative ++ s) = (negative, s) := by
  cases negative with
  | true => rfl
  | false => exact takeSign_eq_self h.head?_ne

theorem dropWord?_eq_none {w : Char} (h : ∀ c ∈ s.head?, c.toLower ≠ w) (word : List Char) :
    dropWord? (w :: word) s = none := by
  cases s with
  | nil => rfl
  | cons c s => rw [dropWord?, if_neg (h c rfl)]

end

/-! ## Integers -/

/-- **Saturating at every digit, on the side of the sign, is clamping the number once.** -/
theorem leadingInteger?_eq_clampSigned {text s : List Char} {negative : Bool}
    (h : takeSign (dropBlanks text) = (negative, s)) :
    leadingInteger? text =
      if s.takeWhile Char.isDigit = [] then none
      else some (clampSigned
        (if negative then -(Digits.value (s.takeWhile Char.isDigit) : Int)
          else Digits.value (s.takeWhile Char.isDigit))) := by
  rw [leadingInteger?, h]
  simp only [List.isEmpty_iff, Digits.saturated_eq_min]
  split
  · rfl
  · -- On either side of zero there is one bound that the digits can reach.
    cases negative with
    | true =>
      simp only [if_true, clampSigned, signedMin, signedMax]
      congr 1
      omega
    | false =>
      simp only [Bool.false_eq_true, if_false, clampSigned, signedMin, signedMax]
      congr 1
      omega

/-- A sign and digits are read as their number, clamped, whatever follows them. -/
theorem leadingInteger?_digits (negative : Bool) {ds rest : List Char} (hne : ds ≠ [])
    (hd : ∀ d ∈ ds, d.isDigit = true) (hr : ∀ d ∈ rest.head?, d.isDigit = false) :
    leadingInteger? (signText negative ++ (ds ++ rest)) =
      some (clampSigned (if negative then -(Digits.value ds : Int) else Digits.value ds)) := by
  have hbegins := beginsWithDigit_append hne hd rest
  have hsplit : takeSign (dropBlanks (signText negative ++ (ds ++ rest))) =
      (negative, ds ++ rest) := by
    rw [dropBlanks_signText hbegins, takeSign_signText hbegins]
  rw [leadingInteger?_eq_clampSigned hsplit, (takeWhile_exact hd hr).1, if_neg hne]

/-! ## Floats -/

/-- The text of a fraction behind the digits of a number.  Without digits it has no point. -/
def fractionText (fraction : List Char) : List Char :=
  if fraction.isEmpty then [] else '.' :: fraction

@[simp] theorem fractionText_nil : fractionText [] = [] := rfl

theorem head?_fractionText (fraction : List Char) :
    ∀ d ∈ (fractionText fraction).head?, d.isDigit = false := by
  intro d hd
  unfold fractionText at hd
  split at hd
  · cases hd
  · cases hd
    rfl

theorem readFraction_fractionText {fraction : List Char}
    (hf : ∀ d ∈ fraction, d.isDigit = true) :
    FloatLiteral.readFraction (fractionText fraction) = (fraction, []) := by
  cases fraction with
  | nil => rfl
  | cons d fraction =>
    show ((d :: fraction).takeWhile Char.isDigit, (d :: fraction).dropWhile Char.isDigit) = _
    rw [(takeWhile_all hf).1, (takeWhile_all hf).2]

/-- What begins with the first letter of no word can only be a decimal. -/
theorem readBody?_eq_readDecimal? {s : List Char}
    (h : ∀ c ∈ s.head?, c.toLower ≠ 'i' ∧ c.toLower ≠ 'n') :
    FloatLiteral.readBody? s = FloatLiteral.readDecimal? s := by
  have hinfinity := dropWord?_eq_none (fun c hc => (h c hc).1) "nfinity".toList
  have hinf := dropWord?_eq_none (fun c hc => (h c hc).1) "nf".toList
  have hnan := dropWord?_eq_none (fun c hc => (h c hc).2) "an".toList
  rw [FloatLiteral.readBody?, show "infinity".toList = 'i' :: "nfinity".toList from rfl,
    hinfinity, show "inf".toList = 'i' :: "nf".toList from rfl, hinf,
    show "nan".toList = 'n' :: "an".toList from rfl, hnan]

theorem readBody?_decimal {whole fraction : List Char} (hne : whole ≠ [])
    (hw : ∀ d ∈ whole, d.isDigit = true) (hf : ∀ d ∈ fraction, d.isDigit = true) :
    FloatLiteral.readBody? (whole ++ fractionText fraction) =
      some (.decimal whole fraction 0, []) := by
  have hempty : whole.isEmpty = false := by simpa using hne
  have hwhole := takeWhile_exact hw (head?_fractionText fraction)
  have hbegins := beginsWithDigit_append hne hw (fractionText fraction)
  rw [readBody?_eq_readDecimal?]
  · simp only [FloatLiteral.readDecimal?, hwhole.1, hwhole.2, readFraction_fractionText hf, hempty,
      Bool.false_and]
    rfl
  · intro c hc
    have hdigit := hbegins.isDigit c hc
    exact ⟨toLower_ne_of_isDigit hdigit rfl, toLower_ne_of_isDigit hdigit rfl⟩

/-- A sign, digits and a fraction are read as the number nearest to them. -/
theorem leadingFloat?_decimal (negative : Bool) {whole fraction : List Char} (hne : whole ≠ [])
    (hw : ∀ d ∈ whole, d.isDigit = true) (hf : ∀ d ∈ fraction, d.isDigit = true) :
    leadingFloat? (signText negative ++ (whole ++ fractionText fraction)) =
      some (.ofDecimal negative (Digits.value (whole ++ fraction)) (0 - fraction.length)) := by
  have hbegins := beginsWithDigit_append hne hw (fractionText fraction)
  rw [leadingFloat?, dropBlanks_signText hbegins, FloatLiteral.read?, takeSign_signText hbegins]
  simp only [readBody?_decimal hne hw hf]
  rfl

end Text

end PercentFormat
