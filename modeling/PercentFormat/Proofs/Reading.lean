import Mathlib.Data.List.Basic
import PercentFormat.Template.Spelling

/-!
# Written attributes, character by character

A spelling grows at its end, one character at a time, and what it becomes is determined by that
character.  Two things follow: no text has two spellings, and of the spellings that a text begins
with, the longest is the one that its next character does not go on with.  A cursor stops
nowhere else, so what it reads is what a text begins with at the most.

## Main definitions

* `Spelling.extend?`: a spelling with one more character
* `Spelling.LongestIn`: the longest spelling that a text begins with

## Main results

* `foldlM_extend?_text`: every spelling is grown from nothing by its text
* `text_injective`: no text has two spellings
* `exists_longest`: what is read as attributes is the longest spelling that lies ahead
* `longestIn_append_iff`: a spelling is the longest exactly if it does not go on
-/

namespace PercentFormat

/-! ## Growing a spelling -/

/-- A number that may be left out, with one more character: it begins with a digit a number may
begin with, and goes on with any digit. -/
def Numeral.extend? : Option Numeral → Char → Option Numeral
  | none, d =>
    if h : Cursor.isLeadingDigit d = true then
      some ⟨[d], ⟨d, rfl, h⟩, by
        intro e he
        rw [List.mem_singleton.mp he]
        simp only [Cursor.isLeadingDigit, Bool.and_eq_true] at h
        exact h.1⟩
    else none
  | some n, d =>
    if h : d.isDigit = true then
      some ⟨n.digits ++ [d], by
        obtain ⟨e, he, hl⟩ := n.leading
        exact ⟨e, by rw [List.head?_append, he]; rfl, hl⟩, by
        intro e he
        rcases List.mem_append.mp he with he | he
        · exact n.isDigit e he
        · rw [List.mem_singleton.mp he]; exact h⟩
    else none

namespace Spelling

/-- Nothing written yet. -/
def empty : Spelling :=
  ⟨none, [], none, none⟩

/-- Written attributes with one more character, if they go on with it.  A `$` turns a width that
nothing stands before into an index. -/
def extend? (s : Spelling) (d : Char) : Option Spelling :=
  match s.precision with
  | some n => (Numeral.extend? n d).map fun n => { s with precision := some (some n) }
  | none =>
    if d = '.' then some { s with precision := some none }
    else
      match Numeral.extend? s.width d with
      | some n => some { s with width := some n }
      | none =>
        match s.width, s.index, s.flags with
        | none, _, flags => (Flag.ofChar? d).map fun f => { s with flags := flags ++ [f] }
        | some n, none, [] => if d = '$' then some ⟨some n, [], none, none⟩ else none
        | some _, _, _ => none

end Spelling

theorem Cursor.isLeadingDigit_flag (f : Flag) : isLeadingDigit f.char = false := by
  cases f <;> decide

theorem Numeral.ext {m n : Numeral} (h : m.digits = n.digits) : m = n := by
  cases m
  cases n
  cases h
  rfl

theorem Numeral.digits_of_extend? {m : Option Numeral} {n : Numeral} {d : Char}
    (h : extend? m d = some n) : n.digits = Spelling.numberText m ++ [d] := by
  cases m <;> simp only [extend?] at h <;> split at h <;> cases h <;> rfl

theorem Numeral.extend?_eq_none (n : Option Numeral) {d : Char} (h : d.isDigit = false) :
    extend? n d = none := by
  cases n <;> simp [extend?, Cursor.isLeadingDigit, h]

theorem Numeral.exists_extend? (n : Numeral) :
    ∃ m d, extend? m d = some n ∧ n.digits = Spelling.numberText m ++ [d] := by
  obtain ⟨e, he, hl⟩ := n.leading
  rcases List.eq_nil_or_concat n.digits with hn | ⟨ds, d, hn⟩
  · rw [hn] at he
    cases he
  · rw [List.concat_eq_append] at hn
    have hd : d.isDigit = true := n.isDigit d (by simp [hn])
    rw [hn] at he
    cases ds with
    | nil =>
      obtain rfl : d = e := Option.some.inj he
      refine ⟨none, d, ?_, hn⟩
      rw [extend?, dif_pos hl]
      exact congrArg some (Numeral.ext hn.symm)
    | cons e' ds =>
      obtain rfl : e' = e := Option.some.inj he
      refine ⟨some ⟨e' :: ds, ⟨e', rfl, hl⟩, fun x hx => n.isDigit x ?_⟩, d, ?_, hn⟩
      · rw [hn]
        exact List.mem_append_left _ hx
      · rw [extend?, dif_pos hd]
        exact congrArg some (Numeral.ext hn.symm)

namespace Spelling

theorem text_of_extend? {s s' : Spelling} {d : Char} (h : s.extend? d = some s') :
    s'.text = s.text ++ [d] := by
  obtain ⟨index, flags, width, precision⟩ := s
  cases precision with
  | some n =>
    obtain ⟨m, hm, rfl⟩ := Option.map_eq_some_iff.mp h
    simp [text, precisionText, numberText, Numeral.digits_of_extend? hm]
  | none =>
    simp only [extend?] at h
    split at h
    next hd =>
      cases h
      simp [text, precisionText, numberText, hd]
    next =>
      split at h
      next m hm =>
        cases h
        simp [text, precisionText, numberText, Numeral.digits_of_extend? hm]
      next =>
        split at h
        next =>
          obtain ⟨f, hf, rfl⟩ := Option.map_eq_some_iff.mp h
          simp [text, precisionText, numberText, Flag.char_eq_of_ofChar? hf]
        next n =>
          split at h
          next hd =>
            cases h
            simp [text, indexText, precisionText, numberText, hd]
          next => cases h
        next => cases h

theorem extend?_point (s : Spelling) (h : s.precision = none) :
    s.extend? '.' = some { s with precision := some none } := by
  rw [extend?, h]
  rfl

theorem extend?_eq_none {s : Spelling} {d : Char} (hs : s.precision = none) (hp : d ≠ '.')
    (hn : Numeral.extend? s.width d = none) (hf : s.width = none → Flag.ofChar? d = none)
    (hx : s.width ≠ none → s.index = none → s.flags = [] → d ≠ '$') : s.extend? d = none := by
  obtain ⟨index, flags, width, precision⟩ := s
  cases hs
  simp only [extend?, if_neg hp]
  rw [hn]
  rcases width with _ | n
  · simp [hf rfl]
  · rcases index with _ | m
    · cases flags with
      | nil => exact if_neg (hx (by simp) rfl rfl)
      | cons f fs => rfl
    · rfl

theorem extend?_foreign (s : Spelling) {d : Char} (hd : d.isDigit = false)
    (hf : Flag.ofChar? d = none) (hp : d ≠ '.') (hx : d ≠ '$') : s.extend? d = none := by
  rcases hs : s.precision with _ | n
  · exact extend?_eq_none hs hp (Numeral.extend?_eq_none _ hd) (fun _ => hf) fun _ _ _ => hx
  · rw [extend?, hs]
    simp [Numeral.extend?_eq_none n hd]

theorem extend?_conversion (s : Spelling) (k : Conversion) : s.extend? k.char = none := by
  cases k <;> exact s.extend?_foreign rfl rfl (by decide) (by decide)

theorem exists_extend? (s : Spelling) : s = empty ∨ ∃ s' d, extend? s' d = some s := by
  obtain ⟨index, flags, width, precision⟩ := s
  -- The last character lies in the last part that is not empty.
  rcases precision with _ | _ | n
  · rcases width with _ | n
    · rcases List.eq_nil_or_concat flags with rfl | ⟨fs, f, rfl⟩
      · rcases index with _ | n
        · exact Or.inl rfl
        · refine Or.inr ⟨⟨none, [], some n, none⟩, '$', ?_⟩
          simp [extend?, Numeral.extend?_eq_none (some n) (show '$'.isDigit = false from rfl)]
      · refine Or.inr ⟨⟨index, fs, none, none⟩, f.char, ?_⟩
        have hp : f.char ≠ '.' := by cases f <;> decide
        have hn : Numeral.extend? none f.char = none := by
          simp [Numeral.extend?, Cursor.isLeadingDigit_flag f]
        simp [extend?, hp, hn]
    · obtain ⟨m, d, hm, -⟩ := n.exists_extend?
      refine Or.inr ⟨⟨index, flags, m, none⟩, d, ?_⟩
      have hp : d ≠ '.' := by
        rintro rfl
        rw [Numeral.extend?_eq_none m (show '.'.isDigit = false from rfl)] at hm
        cases hm
      simp [extend?, hp, hm]
  · exact Or.inr ⟨⟨index, flags, width, none⟩, '.', extend?_point _ rfl⟩
  · obtain ⟨m, d, hm, -⟩ := n.exists_extend?
    refine Or.inr ⟨⟨index, flags, width, some m⟩, d, ?_⟩
    simp [extend?, hm]

/-- Every spelling is grown from nothing by its text. -/
theorem foldlM_extend?_text (s : Spelling) : s.text.foldlM extend? empty = some s := by
  -- By induction on the text, from its end.
  rcases s.exists_extend? with rfl | ⟨s', d, h⟩
  · rfl
  · have ht := text_of_extend? h
    rw [ht, List.foldlM_append, foldlM_extend?_text s']
    simpa using h
termination_by s.text.length
decreasing_by
  rw [ht, List.length_append]
  exact Nat.lt_succ_self _

/-- No text has two spellings. -/
theorem text_injective : Function.Injective text := by
  intro s s' h
  have hs := s.foldlM_extend?_text
  rw [h, s'.foldlM_extend?_text] at hs
  exact (Option.some.inj hs).symm

/-! ## The longest spelling -/

/-- A text begins with the spelling `s`, and with no longer one. -/
def LongestIn (s : Spelling) (rest : List Char) : Prop :=
  s.text <+: rest ∧ ∀ s' : Spelling, s'.text <+: rest → s'.text.length ≤ s.text.length

theorem LongestIn.unique {s s' : Spelling} {rest : List Char} (h : s.LongestIn rest)
    (h' : s'.LongestIn rest) : s = s' := by
  have hl : s.text.length = s'.text.length := by
    apply Nat.le_antisymm
    · exact h'.2 s h.1
    · exact h.2 s' h'.1
  apply text_injective
  rw [List.prefix_iff_eq_take.mp h.1, List.prefix_iff_eq_take.mp h'.1, hl]

/-- A spelling is the longest in a text exactly if it does not go on with the next character. -/
theorem longestIn_append_iff {s : Spelling} {rest : List Char} :
    s.LongestIn (s.text ++ rest) ↔ ∀ d ∈ rest.head?, s.extend? d = none := by
  constructor
  · intro h d hd
    obtain ⟨t, rfl⟩ := List.head?_eq_some_iff.mp hd
    by_contra hne
    obtain ⟨s', hs'⟩ := Option.ne_none_iff_exists'.mp hne
    have ht := text_of_extend? hs'
    have hp : s'.text <+: s.text ++ d :: t := ⟨t, by simp [ht]⟩
    have hle := h.2 s' hp
    rw [ht, List.length_append] at hle
    exact absurd hle (by simp)
  · intro h
    refine ⟨List.prefix_append _ _, ?_⟩
    intro s' hs'
    by_contra hlt
    -- A longer spelling would have grown out of `s` by a character it does not go on with.
    obtain ⟨u, hu⟩ := List.prefix_of_prefix_length_le (List.prefix_append s.text rest) hs'
      (Nat.le_of_not_le hlt)
    obtain ⟨t, ht⟩ := hs'
    have hr : rest = u ++ t := by
      rw [← hu, List.append_assoc] at ht
      exact (List.append_cancel_left ht).symm
    have hg := s'.foldlM_extend?_text
    rw [← hu, List.foldlM_append, s.foldlM_extend?_text] at hg
    cases u with
    | nil => simp [← hu] at hlt
    | cons d u =>
      have hd : s.extend? d = none := h d (by simp [hr])
      simp [hd] at hg

end Spelling

/-! ## What is read was written

Every part of a directive is read as far as it goes, so what is read of it was written, and does
not go on with the character the cursor stops at. -/

theorem Text.head?_dropWhile (p : Char → Bool) (s : List Char) :
    ∀ c ∈ (s.dropWhile p).head?, p c = false := by
  intro c hc
  have h := List.head?_dropWhile_not p s
  rw [Option.mem_def.mp hc] at h
  simpa using h

namespace Cursor

theorem bump_moves_of_peek? {c : Cursor} {d : Char} (h : c.peek? = some d) :
    c.Moves [d] c.bump := by
  obtain ⟨k, _ | ⟨e, rest⟩⟩ := c
  · cases h
  · cases h
    exact bump_moves k d rest

theorem takeWhile_stops (p : Char → Bool) (c : Cursor) :
    ∀ d ∈ (c.takeWhile p).2.rest.head?, p d = false :=
  Text.head?_dropWhile p c.rest

theorem exists_numberText (c : Cursor) :
    ∃ n : Option Numeral, c.Moves (Spelling.numberText n) c.readNumber?.2 ∧
      c.readNumber?.1 = n.map Numeral.value ∧
        ∀ d ∈ c.readNumber?.2.rest.head?, Numeral.extend? n d = none := by
  unfold readNumber?
  split
  next d hd =>
    split
    next hl =>
      have hdigit : d.isDigit = true := by
        simp only [isLeadingDigit, Bool.and_eq_true] at hl
        exact hl.1
      have hhead : d ∈ (c.takeWhile Char.isDigit).1.head? := by
        obtain ⟨t, ht⟩ := List.head?_eq_some_iff.mp hd
        simp [takeWhile, ht, hdigit]
      have hall : ∀ e ∈ (c.takeWhile Char.isDigit).1, e.isDigit = true := by
        intro e he
        exact List.all_eq_true.mp List.all_takeWhile e he
      refine ⟨some ⟨(c.takeWhile Char.isDigit).1, ⟨d, hhead, hl⟩, hall⟩,
        c.takeWhile_moves _, ?_, ?_⟩
      · -- The value is clamped at every digit where it is read, and once where it is meant.
        simp only [Digits.saturated_eq_min, Option.map_some, Numeral.value]
      · intro e he
        simp [Numeral.extend?, c.takeWhile_stops _ e he]
    next hl =>
      refine ⟨none, Moves.refl c, rfl, ?_⟩
      intro e he
      obtain rfl : d = e := Option.some.inj (hd.symm.trans he)
      simp [Numeral.extend?, hl]
  next hd =>
    refine ⟨none, Moves.refl c, rfl, ?_⟩
    intro e he
    cases hd.symm.trans he

theorem map_char_filterMap {ds : List Char} (h : ∀ d ∈ ds, (Flag.ofChar? d).isSome = true) :
    (ds.filterMap Flag.ofChar?).map Flag.char = ds := by
  induction ds with
  | nil => rfl
  | cons d ds ih =>
    obtain ⟨f, hf⟩ := Option.isSome_iff_exists.mp (h d List.mem_cons_self)
    rw [List.filterMap_cons_some hf, List.map_cons, Flag.char_eq_of_ofChar? hf,
      ih fun e he => h e (List.mem_cons_of_mem _ he)]

theorem exists_flags (c : Cursor) :
    ∃ fs : List Flag, c.Moves (fs.map Flag.char) c.readFlags.2 ∧ c.readFlags.1 = .ofList fs ∧
      ∀ d ∈ c.readFlags.2.rest.head?, Flag.ofChar? d = none := by
  have hall : ∀ d ∈ c.rest.takeWhile (fun d => (Flag.ofChar? d).isSome),
      (Flag.ofChar? d).isSome = true := by
    intro d hd
    exact List.all_eq_true.mp List.all_takeWhile d hd
  refine ⟨_, ?_, rfl, ?_⟩
  · rw [map_char_filterMap hall]
    exact c.takeWhile_moves _
  · intro d hd
    simpa using c.takeWhile_stops (fun d => (Flag.ofChar? d).isSome) d hd

/-- Flags and a width that are read were written, and the width is followed by no digit or, if
there is none, by no flag. -/
theorem exists_flagsWidth (c : Cursor) :
    ∃ (fs : List Flag) (n : Option Numeral),
      c.Moves (fs.map Flag.char ++ Spelling.numberText n) c.readFlagsWidth.2 ∧
        c.readFlagsWidth.1 = { flags := .ofList fs, width := Spelling.numberValue n } ∧
          ∀ d ∈ c.readFlagsWidth.2.rest.head?,
            Numeral.extend? n d = none ∧ (n = none → Flag.ofChar? d = none) := by
  obtain ⟨fs, hf, hfs, hstop⟩ := c.exists_flags
  obtain ⟨n, hn, hw, hnstop⟩ := c.readFlags.2.exists_numberText
  refine ⟨fs, n, hf.trans hn, ?_, ?_⟩
  · rw [readFlagsWidth]
    simp only [hfs, hw]
    cases n <;> rfl
  · intro d hd
    refine ⟨hnstop d hd, ?_⟩
    rintro rfl
    have hrest : c.readFlags.2.rest = c.readFlagsWidth.2.rest := hn.rest
    exact hstop d (hrest ▸ hd)

/-- An index, flags and a width that are read were written, and they go on with nothing but a
point. -/
theorem exists_indexFlagsWidth (c : Cursor) :
    ∃ s : Spelling, s.precision = none ∧ c.Moves s.text c.readIndexFlagsWidth.2 ∧
      c.readIndexFlagsWidth.1 = s.attributes ∧
        ∀ d ∈ c.readIndexFlagsWidth.2.rest.head?, d ≠ '.' → s.extend? d = none := by
  -- What the number at the start is, an index or a width, is settled by the character behind it.
  obtain ⟨n, hm, hn, hstop⟩ := c.exists_numberText
  unfold readIndexFlagsWidth
  split
  next c' h =>
    rw [h] at hm hn hstop
    obtain ⟨fs, w, hf, hfw, hwstop⟩ := c'.exists_flagsWidth
    cases n with
    | some n => cases hn
    | none =>
      refine ⟨⟨none, fs, w, none⟩, rfl, ?_, hfw, ?_⟩
      · simpa [Spelling.text, Spelling.indexText, Spelling.precisionText, Spelling.numberText]
          using hm.trans hf
      · intro d hd hp
        apply Spelling.extend?_eq_none rfl hp (hwstop d hd).1 (hwstop d hd).2
        -- A width that no flag stands before would have been read as the number at the start.
        rintro hw - rfl -
        obtain ⟨w, rfl⟩ := Option.ne_none_iff_exists'.mp hw
        obtain ⟨e, he, hl⟩ := w.leading
        have hrest : c'.rest = w.digits ++ c'.readFlagsWidth.2.rest := hf.rest
        have hnone := hstop e (by rw [hrest, List.head?_append, he]; rfl)
        simp [Numeral.extend?, hl] at hnone
  next v c' h =>
    rw [h] at hm hn hstop
    cases n with
    | none => cases hn
    | some n =>
      cases hn
      split
      next hp =>
        obtain ⟨fs, w, hf, hfw, hwstop⟩ := c'.bump.exists_flagsWidth
        refine ⟨⟨some n, fs, w, none⟩, rfl, ?_, ?_, ?_⟩
        · simpa [Spelling.text, Spelling.indexText, Spelling.precisionText, Spelling.numberText]
            using hm.trans ((bump_moves_of_peek? hp).trans hf)
        · exact congrArg (fun a : Attributes => { a with index := some (n.value - 1) }) hfw
        · intro d hd hp
          apply Spelling.extend?_eq_none rfl hp (hwstop d hd).1 (hwstop d hd).2
          intro _ hindex
          cases hindex
      next hx =>
        refine ⟨⟨none, [], some n, none⟩, rfl, ?_, rfl, ?_⟩
        · simpa [Spelling.text, Spelling.indexText, Spelling.precisionText] using hm
        · intro d hd hp
          apply Spelling.extend?_eq_none rfl hp (hstop d hd)
          · intro hw
            cases hw
          · rintro - - - rfl
            exact hx hd

/-- A precision that is read was written.  Without one no point lies ahead. -/
theorem exists_precision (c : Cursor) :
    ∃ p : Option (Option Numeral), c.Moves (Spelling.precisionText p) c.readPrecision.2 ∧
      c.readPrecision.1 = p.map Spelling.numberValue ∧
        (p = none → c.readPrecision.2 = c ∧ ∀ d ∈ c.rest.head?, d ≠ '.') ∧
          ∀ n, p = some n → ∀ d ∈ c.readPrecision.2.rest.head?, Numeral.extend? n d = none := by
  unfold readPrecision
  split
  next hp =>
    obtain ⟨n, hm, hn, hstop⟩ := c.bump.exists_numberText
    refine ⟨some n, (bump_moves_of_peek? hp).trans hm, ?_, ?_, ?_⟩
    · simp only [hn]
      cases n <;> rfl
    · intro h
      cases h
    · rintro m ⟨⟩
      exact hstop
  next hp =>
    refine ⟨none, Moves.refl c, rfl, ?_, ?_⟩
    · intro _
      refine ⟨rfl, ?_⟩
      rintro d hd rfl
      exact hp hd
    · intro n h
      cases h

/-- **What is read as attributes is the longest spelling that lies ahead.** -/
theorem exists_longest (c : Cursor) :
    ∃ s : Spelling, s.LongestIn c.rest ∧ c.Moves s.text c.readAttributes.2 ∧
      c.readAttributes.1 = s.attributes := by
  obtain ⟨⟨index, flags, width, precision⟩, rfl, hm, ha, hstop⟩ := c.exists_indexFlagsWidth
  obtain ⟨p, hp, hpa, hnone, hsome⟩ := c.readIndexFlagsWidth.2.exists_precision
  have hmoves : c.Moves (Spelling.text ⟨index, flags, width, p⟩) c.readAttributes.2 := by
    show c.Moves _ c.readIndexFlagsWidth.2.readPrecision.2
    simpa [Spelling.text, Spelling.precisionText] using hm.trans hp
  refine ⟨⟨index, flags, width, p⟩, ?_, hmoves, ?_⟩
  · rw [hmoves.rest, Spelling.longestIn_append_iff]
    intro d hd
    cases p with
    | none =>
      obtain ⟨hrest, hpoint⟩ := hnone rfl
      have hd' : d ∈ c.readIndexFlagsWidth.2.rest.head? := hrest ▸ hd
      exact hstop d hd' (hpoint d hd')
    | some n => simp [Spelling.extend?, hsome n rfl d hd]
  · rw [readAttributes]
    simp only [ha, hpa]
    rfl

/-- The longest spelling that lies ahead is read as what it means. -/
theorem readAttributes_longest {s : Spelling} {rest : List Char}
    (h : s.LongestIn (s.text ++ rest)) (k : Nat) :
    readAttributes ⟨k, s.text ++ rest⟩ =
      (s.attributes, ⟨k + Text.byteLength s.text, rest⟩) := by
  obtain ⟨s', hs', hm, ha⟩ := exists_longest ⟨k, s.text ++ rest⟩
  obtain rfl : s' = s := hs'.unique h
  have hrest : rest = (readAttributes ⟨k, s'.text ++ rest⟩).2.rest :=
    List.append_cancel_left hm.rest
  exact Prod.ext ha (congrArg₂ Cursor.mk hm.position hrest.symm)

end Cursor

end PercentFormat
