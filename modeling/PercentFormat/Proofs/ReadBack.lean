import PercentFormat.Proofs.ClampedInteger
import PercentFormat.Proofs.Sign
import PercentFormat.Proofs.Width

/-!
# Reading back what is shown of an integer

What `%d` shows of an integer is itself a text that holds an integer, and `%d` reads it.  Between the
two stands the padding.  Spaces are none of the number on either side of it: in front they are blanks,
behind they are no digits.  A space that stands for a plus sign is one more blank, and a plus sign is
read as one.  Zeros in front of digits are digits, and do not change the number.

Only zeros in front of a sign part the two.  They are digits and the sign is none, so the number ends
before it has begun: the zeros are read, and nothing else.

## Main definitions

* `Attributes.SignLeads`: padding with zeros would not come before the sign of an integer
* `Conversion.ReadsBackAs`: what `%d` shows is read as a given integer

## Main results

* `integerHead_of_parts`: a sign and digits are the head of a text, behind blanks
* `exists_integerHead_padded`: a padded integer has its own sign and digits at its head
* `integerHead_zeros`: or zeros, if they come before its sign
* `render_decimal_readsBack`: which integer `%d` reads in what it has shown
-/

namespace PercentFormat

theorem Digits.value_zeros_append (k : Nat) (ds : List Char) :
    value (List.replicate k '0' ++ ds) = value ds := by
  rw [value_append, value_replicate_zero, Nat.zero_mul, Nat.zero_add]

namespace Text

/-! ## Heads -/

/-- Behind blanks, a sign and digits are the head of a text, up to the first character that is no
digit. -/
theorem integerHead_of_parts {negative : Bool} {blanks sign digits rest : List Char}
    (hblanks : ∀ c ∈ blanks, isBlank c = true) (hsign : IsSign negative sign) (hne : digits ≠ [])
    (hdigits : ∀ d ∈ digits, d.isDigit = true) (hrest : ∀ d ∈ rest.head?, d.isDigit = false) :
    IntegerHead (blanks ++ (sign ++ (digits ++ rest))) negative digits := by
  have hbegins := beginsWithDigit_append hne hdigits rest
  refine .mk rfl hblanks ?_ hsign (fun _ => hbegins.head?_ne) hdigits hrest
  intro c hc
  cases hsign with
  | absent => exact isBlank_of_isDigit (hbegins.isDigit c hc)
  | plus =>
    obtain rfl : '+' = c := Option.some.inj hc
    rfl
  | minus =>
    obtain rfl : '-' = c := Option.some.inj hc
    rfl

theorem IntegerHead.leadingInteger?_eq {text digits : List Char} {negative : Bool}
    (h : IntegerHead text negative digits) (hne : digits ≠ []) :
    leadingInteger? text =
      some (clampSigned (if negative then -(Digits.value digits : Int) else Digits.value digits)) := by
  obtain ⟨s, hsplit, hs⟩ := h.exists_takeSign
  rw [leadingInteger?_eq_clampSigned hsplit, hs, if_neg hne]

/-! ## Padding -/

theorem isBlank_of_mem_spaces {k : Nat} : ∀ c ∈ List.replicate k ' ', isBlank c = true := by
  intro c hc
  rw [List.eq_of_mem_replicate hc]
  rfl

theorem isDigit_of_mem_zeros {k : Nat} : ∀ d ∈ List.replicate k '0', d.isDigit = true := by
  intro d hd
  rw [List.eq_of_mem_replicate hd]
  rfl

theorem head?_spaces {k : Nat} : ∀ d ∈ (List.replicate k ' ').head?, d.isDigit = false := by
  intro d hd
  rw [List.eq_of_mem_replicate (List.mem_of_mem_head? hd)]
  rfl

end Text

namespace Attributes

open Text (isBlank IsSign IntegerHead)

variable (a : Attributes) (i : Int)

/-! ## Signs in front of padding -/

theorem exists_sign (negative : Bool) :
    ∃ blanks sign, a.sign negative = blanks ++ sign ∧ (∀ c ∈ blanks, isBlank c = true) ∧
      IsSign negative sign := by
  unfold sign numberSign
  cases negative with
  | true => exact ⟨[], _, rfl, List.forall_mem_nil _, .minus⟩
  | false =>
    cases a.flags.plus with
    | true => exact ⟨[], _, rfl, List.forall_mem_nil _, .plus⟩
    | false =>
      cases a.flags.space with
      | true => exact ⟨[' '], [], rfl, Text.isBlank_of_mem_spaces (k := 1), .absent⟩
      | false => exact ⟨[], [], rfl, List.forall_mem_nil _, .absent⟩

theorem isDigit_of_mem_sign {negative : Bool} {c : Char} (h : c ∈ a.sign negative) :
    c.isDigit = false := by
  obtain ⟨blanks, sign, hsplit, hblanks, hsign⟩ := a.exists_sign negative
  rw [hsplit, List.mem_append] at h
  rcases h with h | h
  · by_contra hdigit
    have hblank := Text.isBlank_of_isDigit (by simpa using hdigit)
    rw [hblanks c h] at hblank
    cases hblank
  · cases hsign <;> simp_all

/-- Padding with zeros would not come before the sign of an integer: padding on the left is made of
spaces, or no sign is shown. -/
def SignLeads : Prop :=
  a.fill = ' ' ∨ 0 ≤ i ∧ a.flags.plus = false ∧ a.flags.space = false

instance : Decidable (a.SignLeads i) :=
  inferInstanceAs (Decidable (_ ∨ _))

theorem signLeads_iff : a.SignLeads i ↔ a.fill = ' ' ∨ a.sign (decide (i < 0)) = [] := by
  unfold SignLeads sign numberSign
  by_cases h : i < 0
  · simp [h, Int.not_le.mpr h]
  · cases a.flags.plus <;> cases a.flags.space <;> simp [h, Int.not_lt.mp h]

theorem fill_eq_zero_of_ne (h : a.fill ≠ ' ') : a.fill = '0' ∧ a.flags.leftJustify = false := by
  rw [ne_eq, fill_eq_space_iff, not_not] at h
  exact ⟨a.fill_eq_zero_iff.mpr h, h.2⟩

/-! ## Heads of padded integers -/

/-- Between blanks and what begins with no digit, an integer has its sign and its digits at the
head. -/
theorem integerHead_integerText {front back : List Char} (hfront : ∀ c ∈ front, isBlank c = true)
    (hback : ∀ d ∈ back.head?, d.isDigit = false) :
    IntegerHead (front ++ (a.integerText i ++ back)) (decide (i < 0)) (Digits.ofNat i.natAbs) := by
  obtain ⟨blanks, sign, hsplit, hblanks, hsign⟩ := a.exists_sign (decide (i < 0))
  have hparts : front ++ (a.integerText i ++ back) =
      (front ++ blanks) ++ (sign ++ (Digits.ofNat i.natAbs ++ back)) := by
    simp [integerText_eq, hsplit]
  have hleading : ∀ c ∈ front ++ blanks, isBlank c = true :=
    List.forall_mem_append.mpr ⟨hfront, hblanks⟩
  rw [hparts]
  exact Text.integerHead_of_parts hleading hsign (Digits.ofNat_ne_nil _)
    (fun _ => Digits.isDigit_of_mem_ofNat) hback

/-- Zeros in front of an integer that shows no sign are digits of it. -/
theorem integerHead_zeros_append (h : a.sign (decide (i < 0)) = []) (k : Nat) :
    IntegerHead (List.replicate k '0' ++ a.integerText i) (decide (i < 0))
      (List.replicate k '0' ++ Digits.ofNat i.natAbs) := by
  obtain ⟨blanks, sign, hsplit, -, hsign⟩ := a.exists_sign (decide (i < 0))
  obtain ⟨-, rfl⟩ := List.append_eq_nil_iff.mp (hsplit.symm.trans h)
  have hdigits : ∀ d ∈ List.replicate k '0' ++ Digits.ofNat i.natAbs, d.isDigit = true :=
    List.forall_mem_append.mpr ⟨Text.isDigit_of_mem_zeros, fun _ => Digits.isDigit_of_mem_ofNat⟩
  have hhead := Text.integerHead_of_parts (List.forall_mem_nil _) hsign
    (List.append_ne_nil_of_right_ne_nil _ (Digits.ofNat_ne_nil _)) hdigits (Text.head?_spaces (k := 0))
  simpa [integerText_eq, h] using hhead

/-- **A padded integer has its own sign and digits at its head**, perhaps with zeros in front of the
digits, unless zeros come before its sign. -/
theorem exists_integerHead_padded (h : a.SignLeads i ∨ a.width ≤ (a.integerText i).length) :
    ∃ digits, IntegerHead (a.padded (a.integerText i)) (decide (i < 0)) digits ∧ digits ≠ [] ∧
      Digits.value digits = i.natAbs := by
  have hspaces : ∀ j k, IntegerHead
      (List.replicate j ' ' ++ (a.integerText i ++ List.replicate k ' ')) (decide (i < 0))
      (Digits.ofNat i.natAbs) := by
    intro j k
    exact a.integerHead_integerText i Text.isBlank_of_mem_spaces Text.head?_spaces
  have hne := Digits.ofNat_ne_nil i.natAbs
  by_cases hwidth : a.width ≤ (a.integerText i).length
  · rw [padded_of_le hwidth]
    exact ⟨_, by simpa using hspaces 0 0, hne, Digits.value_ofNat _⟩
  · have hleads := (a.signLeads_iff i).mp (h.resolve_right hwidth)
    by_cases hfill : a.fill = ' '
    · refine ⟨_, ?_, hne, Digits.value_ofNat _⟩
      rw [padded, hfill]
      split
      · exact hspaces 0 _
      · simpa using hspaces _ 0
    · obtain ⟨hzero, hright⟩ := a.fill_eq_zero_of_ne hfill
      have hhead := a.integerHead_zeros_append i (hleads.resolve_left hfill)
        (a.width - (a.integerText i).length)
      refine ⟨_, by rwa [padded, hright, hzero], List.append_ne_nil_of_right_ne_nil _ hne, ?_⟩
      rw [Digits.value_zeros_append, Digits.value_ofNat]

/-- **Zeros that come before the sign of an integer are read in its place.** -/
theorem integerHead_zeros (h : ¬ (a.SignLeads i ∨ a.width ≤ (a.integerText i).length)) :
    ∃ digits, IntegerHead (a.padded (a.integerText i)) false digits ∧ digits ≠ [] ∧
      Digits.value digits = 0 := by
  rw [not_or, signLeads_iff, not_or] at h
  obtain ⟨⟨hfill, hsign⟩, hwidth⟩ := h
  obtain ⟨hzero, hright⟩ := a.fill_eq_zero_of_ne hfill
  have hrest : ∀ d ∈ (a.integerText i).head?, d.isDigit = false := by
    intro d hd
    rw [integerText_eq, List.head?_append_of_ne_nil _ hsign] at hd
    exact a.isDigit_of_mem_sign (List.mem_of_mem_head? hd)
  have hne : List.replicate (a.width - (a.integerText i).length) '0' ≠ [] := by
    simp only [ne_eq, List.replicate_eq_nil_iff]
    omega
  refine ⟨_, ?_, hne, Digits.value_replicate_zero _⟩
  have hhead := Text.integerHead_of_parts (List.forall_mem_nil _) .absent hne
    Text.isDigit_of_mem_zeros hrest
  rwa [padded, hright, hzero]

end Attributes

namespace Conversion

variable (a : Attributes) (nilToken : String)

/-- What `%d` shows of an argument is read as the integer `i`, and shown as that by `%d` again. -/
def ReadsBackAs (v : Value) (i : Int) : Prop :=
  ∃ shown, (decimal.render a nilToken v).outcome = .ok shown ∧
    Text.leadingInteger? shown = some i ∧
      ∀ f : Formatter, f.format "%d" [.text (String.ofList shown)] =
        .ok (String.ofList (Digits.ofInt i))

variable {a nilToken} {v : Value}

theorem readsBackAs_of_head (hroom : (decimal.render a nilToken v).outcome ≠ .error .capacityOverflow)
    {negative : Bool} {digits : List Char}
    (hhead : Text.IntegerHead (a.padded (a.integerText v.asInteger)) negative digits)
    (hne : digits ≠ []) :
    ReadsBackAs a nilToken v
      (clampSigned (if negative then -(Digits.value digits : Int) else Digits.value digits)) := by
  have hread := hhead.leadingInteger?_eq hne
  refine ⟨a.padded (a.integerText v.asInteger), outcome_render_of_ne hroom, hread, fun f => ?_⟩
  rw [f.format_decimal_text (Or.inl rfl), String.toList_ofList, hread, Option.getD_some]

variable (a nilToken)

/-- **What `%d` shows of an integer, `%d` reads.**  A signed integer is read back as itself, and so is
an unsigned one up to the greatest that is signed, as which any greater one is read; whatever the flags
and the width, as long as no zeros come before a sign.  Where they do, they are read instead. -/
theorem render_decimal_readsBack (v : Value) (i : Int)
    (hv : (∃ j : Int64, v = .int j ∧ j.toInt = i) ∨ ∃ u : UInt64, v = .uint u ∧ (u.toNat : Int) = i)
    (hroom : (decimal.render a nilToken v).outcome ≠ .error .capacityOverflow) :
    (a.SignLeads i ∨ a.width ≤ (a.integerText i).length →
      ReadsBackAs a nilToken v (min i signedMax)) ∧
    (¬ (a.SignLeads i ∨ a.width ≤ (a.integerText i).length) → ReadsBackAs a nilToken v 0) := by
  obtain ⟨rfl, hlow⟩ : v.asInteger = i ∧ signedMin ≤ i := by
    rcases hv with ⟨j, rfl, rfl⟩ | ⟨u, rfl, rfl⟩
    · exact ⟨rfl, j.le_toInt⟩
    · exact ⟨rfl, Int.le_trans (by decide) (Int.natCast_nonneg _)⟩
  refine ⟨?_, ?_⟩
  · intro hleads
    obtain ⟨digits, hhead, hne, hvalue⟩ := a.exists_integerHead_padded _ hleads
    have hreads := readsBackAs_of_head hroom hhead hne
    have hnumber : (if decide (v.asInteger < 0) then -(Digits.value digits : Int)
        else Digits.value digits) = v.asInteger := by
      rw [hvalue]
      simp only [decide_eq_true_eq]
      split <;> omega
    have hclamp : clampSigned v.asInteger = min v.asInteger signedMax := by
      unfold clampSigned
      unfold signedMin signedMax at *
      omega
    rwa [hnumber, hclamp] at hreads
  · intro hleads
    obtain ⟨digits, hhead, hne, hvalue⟩ := a.integerHead_zeros _ hleads
    have hreads := readsBackAs_of_head hroom hhead hne
    rw [hvalue] at hreads
    exact hreads

/-- Zeros in front of the greatest unsigned integer, which has no sign, and in front of one that has. -/
theorem render_decimal_readsBack_zeros :
    ((decimal.render ⟨none, { zero := true }, 24, none⟩ "(nil)"
          (.uint 18446744073709551615)).outcome ≠ .error .capacityOverflow ∧
        ReadsBackAs ⟨none, { zero := true }, 24, none⟩ "(nil)" (.uint 18446744073709551615)
          9223372036854775807) ∧
      (decimal.render ⟨none, { zero := true }, 6, none⟩ "(nil)" (.int (-42))).outcome ≠
          .error .capacityOverflow ∧
        ReadsBackAs ⟨none, { zero := true }, 6, none⟩ "(nil)" (.int (-42)) 0 := by
  have hunsigned : (decimal.render ⟨none, { zero := true }, 24, none⟩ "(nil)"
      (.uint 18446744073709551615)).outcome ≠ .error .capacityOverflow := by
    rw [outcome_render, if_pos (by decide)]
    exact nofun
  have hsigned : (decimal.render ⟨none, { zero := true }, 6, none⟩ "(nil)" (.int (-42))).outcome ≠
      .error .capacityOverflow := by
    rw [outcome_render, if_pos (by decide)]
    exact nofun
  refine ⟨⟨hunsigned, ?_⟩, hsigned, ?_⟩
  · exact (render_decimal_readsBack _ _ _ 18446744073709551615 (.inr ⟨_, rfl, by decide⟩)
      hunsigned).1 (by decide)
  · exact (render_decimal_readsBack _ _ _ (-42) (.inl ⟨_, rfl, by decide⟩) hsigned).2 (by decide)

end Conversion

end PercentFormat
