import Mathlib.Data.List.TakeWhile
import PercentFormat.Proofs.LeadingNumber
import PercentFormat.Proofs.Offsets

/-!
# Numbers as they are written

The grammar of the numbers that are read off the head of a text, as relations between what is
written and what it is taken for:

    integer  =  [ sign ] digits
    float    =  [ sign ] ( "inf" | "infinity" | "nan" | decimal )
    decimal  =  ( digits [ "." [ digits ] ] | "." digits ) [ ( "e" | "E" ) [ sign ] digits ]

Words may have letters of either case.  The readers take as much as they can, and what is shown here
is that they miss nothing: they find a number exactly where the text, behind its leading blanks,
begins with something that the grammar derives.

## Main definitions

* `Text.IsSign`, `FloatLiteral.IsWritten`: a sign, and a float literal, as it is written
* `Text.BeginsWithInteger`, `Text.BeginsWithFloat`: behind blanks, a text begins with a number

## Main results

* `exists_isWritten_of_read?`: a literal that is read was written
* `exists_read?`: as much is read as was written, whatever follows it
* `isSome_leadingInteger?_iff`, `isSome_leadingFloat?_iff`: the readers find what there is
-/

namespace PercentFormat

namespace Text

/-! ## Signs -/

/-- A sign that may be left out, and whether it is a `-`. -/
inductive IsSign : Bool → List Char → Prop
  | absent : IsSign false []
  | plus : IsSign false ['+']
  | minus : IsSign true ['-']

theorem exists_sign (s : List Char) :
    ∃ sign, IsSign (takeSign s).1 sign ∧ s = sign ++ (takeSign s).2 := by
  unfold takeSign
  split
  · exact ⟨_, .minus, rfl⟩
  · exact ⟨_, .plus, rfl⟩
  · exact ⟨_, .absent, rfl⟩

theorem takeSign_append {negative : Bool} {sign s : List Char} (h : IsSign negative sign)
    (hs : ∀ c ∈ s.head?, c ≠ '-' ∧ c ≠ '+') : takeSign (sign ++ s) = (negative, s) := by
  cases h with
  | absent => exact takeSign_eq_self hs
  | plus => rfl
  | minus => rfl

theorem takeWhile_isDigit_ne_nil_iff {s : List Char} :
    s.takeWhile Char.isDigit ≠ [] ↔ BeginsWithDigit s := by
  cases s with
  | nil => simp [BeginsWithDigit]
  | cons c s => cases hc : c.isDigit <;> simp [BeginsWithDigit, hc]

/-! ## Integers -/

/-- Behind its leading blanks, the text begins with a digit, perhaps after a sign. -/
def BeginsWithInteger (s : List Char) : Prop :=
  ∃ negative sign rest, IsSign negative sign ∧ BeginsWithDigit rest ∧ dropBlanks s = sign ++ rest

/-- **An integer is found exactly where one begins.** -/
theorem isSome_leadingInteger?_iff {s : List Char} :
    (leadingInteger? s).isSome = true ↔ BeginsWithInteger s := by
  -- What is read is bounded, but that something is read depends on the first digit alone.
  have hread : (leadingInteger? s).isSome = true ↔
      BeginsWithDigit (takeSign (dropBlanks s)).2 := by
    rw [← takeWhile_isDigit_ne_nil_iff, leadingInteger?]
    dsimp only
    by_cases hds : (takeSign (dropBlanks s)).2.takeWhile Char.isDigit = []
    · simp [hds]
    · rw [if_neg (by simpa using hds)]
      split <;> simp [hds]
  rw [hread]
  constructor
  · intro h
    obtain ⟨sign, hsign, hs⟩ := exists_sign (dropBlanks s)
    exact ⟨_, sign, _, hsign, h, hs⟩
  · rintro ⟨negative, sign, rest, hsign, hrest, hs⟩
    rwa [hs, takeSign_append hsign hrest.head?_ne]

instance (s : List Char) : Decidable (BeginsWithInteger s) :=
  decidable_of_iff _ isSome_leadingInteger?_iff

/-! ## Words -/

theorem exists_of_dropWord? {word s rest : List Char} (h : dropWord? word s = some rest) :
    ∃ t, t.map Char.toLower = word ∧ s = t ++ rest := by
  fun_induction dropWord? word s with
  | case1 s =>
    cases h
    exact ⟨[], rfl, rfl⟩
  | case2 => cases h
  | case3 word c s ih =>
    obtain ⟨t, ht, rfl⟩ := ih h
    exact ⟨c :: t, by rw [List.map_cons, ht], rfl⟩
  | case4 => cases h

theorem dropWord?_append (t rest : List Char) :
    dropWord? (t.map Char.toLower) (t ++ rest) = some rest := by
  induction t with
  | nil => cases rest <;> rfl
  | cons c t ih => rwa [List.map_cons, List.cons_append, dropWord?, if_pos rfl]

end Text

namespace FloatLiteral

/-! ## Float literals -/

/-- The digits behind a point, and the point with them.  Without digits it may be left out. -/
inductive IsFraction : List Char → List Char → Prop
  | absent : IsFraction [] []
  | point (fraction : List Char) : IsFraction fraction ('.' :: fraction)

/-- An exponent of ten that may be left out; it has at least one digit. -/
inductive IsExponent : Int → List Char → Prop
  | absent : IsExponent 0 []
  | present {mark : Char} {negative : Bool} {sign digits : List Char}
    (hmark : mark = 'e' ∨ mark = 'E') (hsign : Text.IsSign negative sign) (hne : digits ≠ [])
    (hdigits : ∀ d ∈ digits, d.isDigit = true) :
    IsExponent (if negative then -(Digits.value digits) else Digits.value digits)
      (mark :: (sign ++ digits))

/-- What follows the sign of a literal, as it is written. -/
inductive Body.IsWritten : Body → List Char → Prop
  | infinity {word : List Char}
    (hword : word.map Char.toLower = "inf".toList ∨ word.map Char.toLower = "infinity".toList) :
    IsWritten .infinity word
  | nan {word : List Char} (hword : word.map Char.toLower = "nan".toList) : IsWritten .nan word
  | decimal {whole fraction point exponentText : List Char} {exponent : Int}
    (hwhole : ∀ d ∈ whole, d.isDigit = true) (hfraction : ∀ d ∈ fraction, d.isDigit = true)
    (hne : whole ≠ [] ∨ fraction ≠ []) (hpoint : IsFraction fraction point)
    (hexponent : IsExponent exponent exponentText) :
    IsWritten (.decimal whole fraction exponent) (whole ++ (point ++ exponentText))

/-- A literal, as it is written. -/
inductive IsWritten : FloatLiteral → List Char → Prop
  | mk {negative : Bool} {sign text : List Char} {body : Body} (hsign : Text.IsSign negative sign)
    (hbody : body.IsWritten text) : IsWritten ⟨negative, body⟩ (sign ++ text)

/-! ## What is read was written -/

theorem exists_marked {mark : Char} {r : List Char} (hmark : mark = 'e' ∨ mark = 'E')
    (hne : (Text.takeSign r).2.takeWhile Char.isDigit ≠ []) :
    ∃ t, IsExponent
        (if (Text.takeSign r).1 then -(Digits.value ((Text.takeSign r).2.takeWhile Char.isDigit))
          else Digits.value ((Text.takeSign r).2.takeWhile Char.isDigit)) t ∧
      mark :: r = t ++ (Text.takeSign r).2.dropWhile Char.isDigit := by
  obtain ⟨sign, hsign, hr⟩ := Text.exists_sign r
  refine ⟨_, .present hmark hsign hne ?_, ?_⟩
  · intro d hd
    exact List.mem_takeWhile_imp hd
  · rw [List.cons_append, List.append_assoc, List.takeWhile_append_dropWhile, ← hr]

theorem exists_exponent (s : List Char) :
    ∃ t, IsExponent (readExponent s).1 t ∧ s = t ++ (readExponent s).2 := by
  unfold readExponent
  split
  · dsimp only
    split
    · exact ⟨[], .absent, rfl⟩
    next hne => exact exists_marked (Or.inl rfl) (by simpa using hne)
  · dsimp only
    split
    · exact ⟨[], .absent, rfl⟩
    next hne => exact exists_marked (Or.inr rfl) (by simpa using hne)
  · exact ⟨[], .absent, rfl⟩

theorem exists_fraction (s : List Char) :
    ∃ point, IsFraction (readFraction s).1 point ∧ s = point ++ (readFraction s).2 ∧
      ∀ d ∈ (readFraction s).1, d.isDigit = true := by
  unfold readFraction
  split
  next r =>
    refine ⟨_, .point _, ?_, ?_⟩
    · rw [List.cons_append, List.takeWhile_append_dropWhile]
    · intro d hd
      exact List.mem_takeWhile_imp hd
  · exact ⟨[], .absent, rfl, by simp⟩

theorem exists_decimal {s rest : List Char} {body : Body}
    (h : readDecimal? s = some (body, rest)) : ∃ t, body.IsWritten t ∧ s = t ++ rest := by
  obtain ⟨point, hpoint, hs, hfraction⟩ := exists_fraction (s.dropWhile Char.isDigit)
  obtain ⟨t, ht, hrest⟩ := exists_exponent (readFraction (s.dropWhile Char.isDigit)).2
  unfold readDecimal? at h
  dsimp only at h
  split at h
  · cases h
  next hne =>
    cases h
    refine ⟨_, .decimal ?_ hfraction ?_ hpoint ht, ?_⟩
    · intro d hd
      exact List.mem_takeWhile_imp hd
    · rwa [Bool.and_eq_true, List.isEmpty_iff, List.isEmpty_iff, not_and_or] at hne
    · rw [List.append_assoc, List.append_assoc, ← hrest, ← hs, List.takeWhile_append_dropWhile]

theorem exists_body {s rest : List Char} {body : Body} (h : readBody? s = some (body, rest)) :
    ∃ t, body.IsWritten t ∧ s = t ++ rest := by
  unfold readBody? at h
  split at h
  next hword =>
    cases h
    obtain ⟨t, ht, hs⟩ := Text.exists_of_dropWord? hword
    exact ⟨t, .infinity (Or.inr ht), hs⟩
  next =>
    split at h
    next hword =>
      cases h
      obtain ⟨t, ht, hs⟩ := Text.exists_of_dropWord? hword
      exact ⟨t, .infinity (Or.inl ht), hs⟩
    next =>
      split at h
      next hword =>
        cases h
        obtain ⟨t, ht, hs⟩ := Text.exists_of_dropWord? hword
        exact ⟨t, .nan ht, hs⟩
      next => exact exists_decimal h

/-- **A literal that is read was written.** -/
theorem exists_isWritten_of_read? {s rest : List Char} {literal : FloatLiteral}
    (h : read? s = some (literal, rest)) : ∃ t, literal.IsWritten t ∧ s = t ++ rest := by
  obtain ⟨⟨body, rest'⟩, hbody, hread⟩ := Option.map_eq_some_iff.mp h
  cases hread
  obtain ⟨t, ht, hs⟩ := exists_body hbody
  obtain ⟨sign, hsign, hs'⟩ := Text.exists_sign s
  refine ⟨sign ++ t, .mk hsign ht, ?_⟩
  rw [List.append_assoc, ← hs]
  exact hs'

/-! ## As much is read as was written

Whatever follows a written literal, what is left of the text is left of what follows.  Where the
literal goes on there, more of it is read. -/

theorem readExponent_present {mark : Char} {negative : Bool} {sign digits : List Char}
    (hmark : mark = 'e' ∨ mark = 'E') (hsign : Text.IsSign negative sign) (hne : digits ≠ [])
    (hdigits : ∀ d ∈ digits, d.isDigit = true) (rest : List Char) :
    readExponent (mark :: (sign ++ digits) ++ rest) =
      ((if negative then -(Digits.value (digits ++ rest.takeWhile Char.isDigit))
        else Digits.value (digits ++ rest.takeWhile Char.isDigit) : Int),
        rest.dropWhile Char.isDigit) := by
  have hbegins := Text.beginsWithDigit_append hne hdigits rest
  have hsplit : Text.takeSign (sign ++ (digits ++ rest)) = (negative, digits ++ rest) :=
    Text.takeSign_append hsign hbegins.head?_ne
  have hempty : (digits ++ rest.takeWhile Char.isDigit).isEmpty = false := by simp [hne]
  rw [List.cons_append, List.append_assoc]
  rcases hmark with rfl | rfl <;>
    simp only [readExponent, hsplit, List.takeWhile_append_of_pos hdigits,
      List.dropWhile_append_of_pos hdigits, hempty, Bool.false_eq_true, if_false]

theorem readFraction_cons_of_ne {c : Char} (h : c ≠ '.') (s : List Char) :
    readFraction (c :: s) = ([], c :: s) := by
  unfold readFraction
  split
  next heq => exact absurd (List.cons.inj heq).1 h
  next => rfl

namespace IsExponent

variable {exponent : Int} {text : List Char}

/-- An exponent begins with its mark, which is neither a digit nor a point. -/
theorem head?_ne (h : IsExponent exponent text) :
    ∀ c ∈ text.head?, c.isDigit = false ∧ c ≠ '.' := by
  cases h with
  | absent => exact nofun
  | present hmark =>
    rintro c ⟨⟩
    rcases hmark with rfl | rfl <;> decide

theorem readExponent_suffix (h : IsExponent exponent text) (rest : List Char) :
    (readExponent (text ++ rest)).2 <:+ rest := by
  cases h with
  | absent => exact FloatLiteral.readExponent_suffix rest
  | present hmark hsign hne hdigits =>
    rw [readExponent_present hmark hsign hne hdigits]
    exact List.dropWhile_suffix _

/-- Digits in front of an exponent do not reach into it. -/
theorem digits_suffix (h : IsExponent exponent text) (rest : List Char) :
    (readExponent ((text ++ rest).dropWhile Char.isDigit)).2 <:+ rest := by
  cases text with
  | nil => exact (FloatLiteral.readExponent_suffix _).trans (List.dropWhile_suffix _)
  | cons c text =>
    rw [List.cons_append, List.dropWhile_cons_of_neg (by simp [(h.head?_ne c rfl).1])]
    exact h.readExponent_suffix rest

theorem fraction_suffix (h : IsExponent exponent text) (rest : List Char) :
    (readExponent (readFraction ((text ++ rest).dropWhile Char.isDigit)).2).2 <:+ rest := by
  cases text with
  | nil =>
    exact (FloatLiteral.readExponent_suffix _).trans
      ((readFraction_suffix _).trans (List.dropWhile_suffix _))
  | cons c text =>
    obtain ⟨hdigit, hpoint⟩ := h.head?_ne c rfl
    rw [List.cons_append, List.dropWhile_cons_of_neg (by simp [hdigit]),
      readFraction_cons_of_ne hpoint]
    exact h.readExponent_suffix rest

end IsExponent

theorem head?_decimal {whole fraction point : List Char} (hwhole : ∀ d ∈ whole, d.isDigit = true)
    (hne : whole ≠ [] ∨ fraction ≠ []) (hpoint : IsFraction fraction point) (rest : List Char) :
    ∀ c ∈ (whole ++ (point ++ rest)).head?, c.isDigit = true ∨ c = '.' := by
  cases whole with
  | cons d whole =>
    rintro c ⟨⟩
    exact Or.inl (hwhole d List.mem_cons_self)
  | nil =>
    cases hpoint with
    | absent => simp at hne
    | point =>
      rintro c ⟨⟩
      exact Or.inr rfl

theorem toLower_head?_decimal {whole fraction point : List Char}
    (hwhole : ∀ d ∈ whole, d.isDigit = true) (hne : whole ≠ [] ∨ fraction ≠ [])
    (hpoint : IsFraction fraction point) (rest : List Char) :
    ∀ c ∈ (whole ++ (point ++ rest)).head?, c.toLower ≠ 'i' ∧ c.toLower ≠ 'n' := by
  intro c hc
  rcases head?_decimal hwhole hne hpoint rest c hc with hdigit | rfl
  · exact ⟨Text.toLower_ne_of_isDigit hdigit rfl, Text.toLower_ne_of_isDigit hdigit rfl⟩
  · decide

theorem exists_readDecimal? {whole fraction point exponentText : List Char} {exponent : Int}
    (hwhole : ∀ d ∈ whole, d.isDigit = true) (hfraction : ∀ d ∈ fraction, d.isDigit = true)
    (hne : whole ≠ [] ∨ fraction ≠ []) (hpoint : IsFraction fraction point)
    (hexponent : IsExponent exponent exponentText) (rest : List Char) :
    ∃ body rest', readDecimal? (whole ++ (point ++ (exponentText ++ rest))) = some (body, rest') ∧
      rest' <:+ rest := by
  unfold readDecimal?
  dsimp only
  rw [if_neg]
  · refine ⟨_, _, rfl, ?_⟩
    rw [List.dropWhile_append_of_pos hwhole]
    cases hpoint with
    | absent => exact hexponent.fraction_suffix rest
    | point =>
      have hdigits := hexponent.digits_suffix rest
      rwa [← List.dropWhile_append_of_pos hfraction] at hdigits
  · -- A digit stands at the front, or else behind a point at the front.
    rw [Bool.and_eq_true, List.isEmpty_iff, List.isEmpty_iff, not_and_or]
    cases whole with
    | cons d whole => exact Or.inl (by simp [hwhole d List.mem_cons_self])
    | nil =>
      right
      cases hpoint with
      | absent => simp at hne
      | point =>
        cases fraction with
        | nil => simp at hne
        | cons d fraction =>
          simp [readFraction, hfraction d List.mem_cons_self]

/-- What is left behind a word is left of what follows, if what was written is not longer. -/
theorem dropWord?_suffix_of_le {word text rest r : List Char}
    (h : Text.dropWord? word (text ++ rest) = some r) (hle : text.length ≤ word.length) :
    r <:+ rest := by
  obtain ⟨t, ht, hs⟩ := Text.exists_of_dropWord? h
  have hlength : t.length = word.length := by rw [← ht, List.length_map]
  have hr : r <:+ text ++ rest := ⟨t, hs.symm⟩
  refine List.suffix_of_suffix_length_le hr (List.suffix_append text rest) ?_
  have htotal := congrArg List.length hs
  rw [List.length_append, List.length_append] at htotal
  omega

theorem exists_readBody?_word {text : List Char}
    (h : text.map Char.toLower ∈ ["infinity".toList, "inf".toList, "nan".toList])
    (rest : List Char) :
    ∃ body rest', readBody? (text ++ rest) = some (body, rest') ∧ rest' <:+ rest := by
  have hread := Text.dropWord?_append text rest
  have hlength : (text.map Char.toLower).length = text.length := List.length_map _
  -- A word that is tried earlier and found there is at least as long as the one that was written.
  rw [readBody?]
  cases hinfinity : Text.dropWord? "infinity".toList (text ++ rest) with
  | some r =>
    refine ⟨_, r, rfl, dropWord?_suffix_of_le hinfinity ?_⟩
    rw [← hlength]
    simp only [List.mem_cons, List.not_mem_nil, or_false] at h
    rcases h with h | h | h <;> rw [h] <;> decide
  | none =>
    cases hinf : Text.dropWord? "inf".toList (text ++ rest) with
    | some r =>
      refine ⟨_, r, rfl, dropWord?_suffix_of_le hinf ?_⟩
      rw [← hlength]
      simp only [List.mem_cons, List.not_mem_nil, or_false] at h
      rcases h with h | h | h
      · rw [h, hinfinity] at hread
        cases hread
      · rw [h]
      · rw [h]
        decide
    | none =>
      simp only [List.mem_cons, List.not_mem_nil, or_false] at h
      rcases h with h | h | h
      · rw [h, hinfinity] at hread
        cases hread
      · rw [h, hinf] at hread
        cases hread
      · rw [h] at hread
        rw [hread]
        exact ⟨_, rest, rfl, List.suffix_refl _⟩

theorem Body.IsWritten.exists_readBody? {body : Body} {text : List Char}
    (h : body.IsWritten text) (rest : List Char) :
    ∃ body' rest', FloatLiteral.readBody? (text ++ rest) = some (body', rest') ∧
      rest' <:+ rest := by
  cases h with
  | infinity hword =>
    apply exists_readBody?_word
    rcases hword with hword | hword <;> simp [hword]
  | nan hword =>
    apply exists_readBody?_word
    simp [hword]
  | decimal hwhole hfraction hne hpoint hexponent =>
    rw [List.append_assoc, List.append_assoc,
      Text.readBody?_eq_readDecimal? (toLower_head?_decimal hwhole hne hpoint _)]
    exact exists_readDecimal? hwhole hfraction hne hpoint hexponent rest

theorem Body.IsWritten.head?_ne {body : Body} {text : List Char} (h : body.IsWritten text)
    (rest : List Char) : ∀ c ∈ (text ++ rest).head?, c ≠ '-' ∧ c ≠ '+' := by
  have hword : ∀ {w : Char} {word : List Char}, text.map Char.toLower = w :: word →
      ('-').toLower ≠ w → ('+').toLower ≠ w →
        ∀ c ∈ (text ++ rest).head?, c ≠ '-' ∧ c ≠ '+' := by
    intro w word hw hminus hplus c hc
    obtain ⟨d, t, rfl, hd, -⟩ := List.map_eq_cons_iff.mp hw
    obtain rfl : d = c := Option.some.inj hc
    constructor
    · rintro rfl
      exact hminus hd
    · rintro rfl
      exact hplus hd
  cases h with
  | infinity h =>
    rcases h with h | h
    · exact hword h (by decide) (by decide)
    · exact hword h (by decide) (by decide)
  | nan h => exact hword h (by decide) (by decide)
  | decimal hwhole hfraction hne hpoint hexponent =>
    intro c hc
    rw [List.append_assoc, List.append_assoc] at hc
    rcases head?_decimal hwhole hne hpoint _ c hc with hdigit | rfl
    · exact Text.BeginsWithDigit.head?_ne ⟨c, hc, hdigit⟩ c hc
    · decide

/-- **As much is read as was written**, whatever follows it, though perhaps more. -/
theorem IsWritten.exists_read? {literal : FloatLiteral} {text : List Char}
    (h : literal.IsWritten text) (rest : List Char) :
    ∃ literal' rest', FloatLiteral.read? (text ++ rest) = some (literal', rest') ∧
      rest' <:+ rest := by
  cases h with
  | mk hsign hbody =>
    obtain ⟨body, rest', hread, hrest⟩ := hbody.exists_readBody? rest
    rw [List.append_assoc, read?, Text.takeSign_append hsign (hbody.head?_ne rest)]
    simp only [hread, Option.map_some]
    exact ⟨_, rest', rfl, hrest⟩

end FloatLiteral

namespace Text

/-- Behind its leading blanks, the text begins with a float literal. -/
def BeginsWithFloat (s : List Char) : Prop :=
  ∃ (literal : FloatLiteral) (text : List Char), literal.IsWritten text ∧ text <+: dropBlanks s

/-- **A float is found exactly where one begins.** -/
theorem isSome_leadingFloat?_iff {s : List Char} :
    (leadingFloat? s).isSome = true ↔ BeginsWithFloat s := by
  rw [leadingFloat?, Option.isSome_map]
  constructor
  · intro h
    obtain ⟨⟨literal, rest⟩, hread⟩ := Option.isSome_iff_exists.mp h
    obtain ⟨t, ht, hs⟩ := FloatLiteral.exists_isWritten_of_read? hread
    exact ⟨literal, t, ht, rest, hs.symm⟩
  · rintro ⟨literal, t, ht, rest, hs⟩
    obtain ⟨_, _, hread, -⟩ := ht.exists_read? rest
    rw [← hs, hread]
    rfl

instance (s : List Char) : Decidable (BeginsWithFloat s) :=
  decidable_of_iff _ isSome_leadingFloat?_iff

end Text

end PercentFormat
