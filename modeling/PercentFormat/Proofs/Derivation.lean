import PercentFormat.Proofs.Reading

/-!
# The derivation of a template

A text is taken apart from the left into written pieces, until it ends or a directive in it is
faulty.  The grammar leaves no choice in this: each piece is determined by the text it begins, so
a text has one derivation at most, and it is the one that is read.

A directive is faulty in one of two ways, and the longest spelling behind its `%` tells which: the
text ends there, or the next character is no conversion.

## Main definitions

* `Faulty`: what is wrong with the text behind a `%`

## Main results

* `derivation_injective`: no text has two derivations
* `read_append`, `parse_text`: what the grammar derives is read as what was derived
* `exists_derivation`: every text is a derived one, perhaps with a faulty directive behind it
* `wellFormed_iff`: the grammar derives exactly the texts that are read without a fault
-/

namespace PercentFormat

/-! ## Directives -/

theorem Spelling.head?_text_append_ne (s : Spelling) {rest : List Char}
    (h : rest.head? ≠ some '%') : (s.text ++ rest).head? ≠ some '%' := by
  intro hp
  have hg := s.foldlM_extend?_text
  -- The spelling is empty, or its first character would have been one that it began with.
  cases ht : s.text with
  | nil =>
    rw [ht] at hp
    exact h hp
  | cons d u =>
    rw [ht] at hp hg
    obtain rfl : d = '%' := Option.some.inj hp
    rw [List.foldlM_cons, Spelling.empty.extend?_foreign rfl rfl (by decide) (by decide)] at hg
    cases hg

/-- In front of a conversion, any spelling is the longest. -/
theorem Spelling.longestIn_conversion (s : Spelling) (k : Conversion) (rest : List Char) :
    s.LongestIn (s.text ++ k.char :: rest) := by
  rw [longestIn_append_iff]
  rintro d ⟨⟩
  exact s.extend?_conversion k

theorem Spelling.head?_text_conversion_ne (s : Spelling) (k : Conversion) (rest : List Char) :
    (s.text ++ k.char :: rest).head? ≠ some '%' := by
  apply s.head?_text_append_ne
  intro h
  cases k <;> exact absurd (Option.some.inj h) (by decide)

/-- What is wrong with a directive, where `rest` is the text behind its `%` and begins at
position `k`. -/
inductive Faulty (k : Nat) (rest : List Char) : TemplateError → Prop where
  /-- Nothing follows the attributes. -/
  | unexpectedEnd (s : Spelling) (longest : s.LongestIn rest) (split : rest = s.text) :
    Faulty k rest (.unexpectedEnd (k + Text.byteLength rest))
  /-- What follows the attributes is no conversion. -/
  | unknownConversion (s : Spelling) (c : Char) (t : List Char) (longest : s.LongestIn rest)
    (split : rest = s.text ++ c :: t) (unknown : Conversion.ofChar? c = none) :
    Faulty k rest (.unknownConversion c (k + Text.byteLength s.text))

namespace Cursor

/-- A directive is read as its longest spelling and then a conversion. -/
theorem readDirective_eq {s : Spelling} {rest : List Char} (h : s.LongestIn (s.text ++ rest))
    (hp : (s.text ++ rest).head? ≠ some '%') (k : Nat) :
    readDirective ⟨k, s.text ++ rest⟩ =
      readConversion s.attributes ⟨k + Text.byteLength s.text, rest⟩ := by
  have hpeek : peek? ⟨k, s.text ++ rest⟩ ≠ some '%' := hp
  rw [readDirective, if_neg hpeek]
  simp only [readAttributes_longest h]

theorem exists_longestIn (rest : List Char) :
    ∃ (s : Spelling) (t : List Char), rest = s.text ++ t ∧ s.LongestIn rest := by
  obtain ⟨s, hs, hm, -⟩ := exists_longest ⟨0, rest⟩
  exact ⟨s, _, hm.rest, hs⟩

theorem readDirective_text (s : Spelling) (conversion : Conversion) (rest : List Char) (k : Nat) :
    readDirective ⟨k, s.text ++ conversion.char :: rest⟩ =
      .ok (.directive s.attributes conversion,
        ⟨k + Text.byteLength (s.text ++ [conversion.char]), rest⟩) := by
  rw [readDirective_eq (s.longestIn_conversion conversion rest)
    (s.head?_text_conversion_ne conversion rest)]
  simp only [readConversion, peek?, List.head?_cons, Conversion.ofChar?_char, bump,
    Text.byteLength_append, Text.byteLength_cons, Text.byteLength_nil, Nat.add_assoc, Nat.add_zero]

theorem readDirective_faulty {k : Nat} {rest : List Char} {e : TemplateError}
    (hp : rest.head? ≠ some '%') (hf : Faulty k rest e) :
    readDirective ⟨k, rest⟩ = .error e := by
  cases hf with
  | unexpectedEnd s hs ht =>
    have ht : rest = s.text ++ [] := by rw [ht, List.append_nil]
    subst ht
    rw [readDirective_eq hs hp, Text.byteLength_append, Text.byteLength_nil, Nat.add_zero]
    rfl
  | unknownConversion s c t hs ht hc =>
    subst ht
    rw [readDirective_eq hs hp]
    simp only [readConversion, peek?, List.head?_cons, hc]

end Cursor

theorem Written.length_text_pos (w : Written) : 0 < w.text.length := by
  cases w <;> simp [text]

/-! ## What is written is read -/

namespace Template

/-- A written piece is read as what it means, whatever follows it. -/
theorem read_written (w : Written) (k : Nat) (rest : List Char) :
    read ⟨k, w.text ++ rest⟩ = (read ⟨k + Text.byteLength w.text, rest⟩).prepend [w.piece] := by
  cases w with
  | literal c h => exact read_literal h k rest
  | percent => exact read_percent k ('%' :: rest)
  | directive s conversion =>
    have hd := Cursor.readDirective_text s conversion rest (k + 1)
    have ht : (Written.directive s conversion).text ++ rest =
        '%' :: (s.text ++ conversion.char :: rest) := by
      simp [Written.text]
    rw [ht, read_percent, hd]
    simp only [Written.text, Written.piece, Text.byteLength_cons, Nat.add_assoc,
      show ('%' : Char).utf8Size = 1 from rfl]

/-- A text the grammar derives is read as what was derived, whatever follows it.  All that the
text behind it takes over is the position. -/
theorem read_append (written : List Written) (k : Nat) (rest : List Char) :
    read ⟨k, written.flatMap Written.text ++ rest⟩ =
      (read ⟨k + Text.byteLength (written.flatMap Written.text), rest⟩).prepend
        (written.map Written.piece) := by
  induction written generalizing k with
  | nil => rfl
  | cons w written ih =>
    rw [List.flatMap_cons, List.append_assoc, read_written, ih, prepend_prepend,
      Text.byteLength_append, Nat.add_assoc]
    rfl

/-- A text the grammar derives is read as what was derived. -/
theorem parse_text (written : List Written) :
    parse (written.flatMap Written.text) = ⟨written.map Written.piece, none⟩ := by
  have h := read_append written 0 []
  rw [List.append_nil, read_nil] at h
  show read ⟨0, written.flatMap Written.text⟩ = _
  rw [h]
  simp [prepend]

theorem read_faulty {k : Nat} {rest : List Char} {e : TemplateError}
    (hp : rest.head? ≠ some '%') (hf : Faulty (k + 1) rest e) :
    read ⟨k, '%' :: rest⟩ = ⟨[], some e⟩ := by
  rw [read_percent, Cursor.readDirective_faulty hp hf]

/-! ## Taking a text apart -/

theorem exists_written_or_faulty (k : Nat) (c : Char) (rest : List Char) :
    (∃ (w : Written) (t : List Char), c :: rest = w.text ++ t) ∨
      c = '%' ∧ rest.head? ≠ some '%' ∧ ∃ e, Faulty k rest e := by
  by_cases hc : c = '%'
  · subst hc
    by_cases hp : rest.head? = some '%'
    · obtain ⟨t, rfl⟩ := List.head?_eq_some_iff.mp hp
      exact Or.inl ⟨.percent, t, rfl⟩
    · obtain ⟨s, t, rfl, hs⟩ := Cursor.exists_longestIn rest
      rcases t with _ | ⟨d, t⟩
      · refine Or.inr ⟨rfl, hp, _, .unexpectedEnd s hs (List.append_nil _)⟩
      · rcases hd : Conversion.ofChar? d with _ | conversion
        · exact Or.inr ⟨rfl, hp, _, .unknownConversion s d t hs rfl hd⟩
        · obtain rfl := Conversion.char_eq_of_ofChar? hd
          exact Or.inl ⟨.directive s conversion, t, by simp [Written.text]⟩
  · exact Or.inl ⟨.literal c hc, rest, rfl⟩

/-- **Every text is derived up to its end, or up to a faulty directive**, and so it is read. -/
theorem exists_derivation (k : Nat) (rest : List Char) :
    ∃ written : List Written,
      (rest = written.flatMap Written.text ∧
        read ⟨k, rest⟩ = ⟨written.map Written.piece, none⟩) ∨
      ∃ (t : List Char) (e : TemplateError), rest = written.flatMap Written.text ++ '%' :: t ∧
        t.head? ≠ some '%' ∧ Faulty (k + Text.byteLength (written.flatMap Written.text) + 1) t e ∧
          read ⟨k, rest⟩ = ⟨written.map Written.piece, some e⟩ := by
  -- By induction on the text: a piece that is written is not empty, so what follows is shorter.
  rcases rest with _ | ⟨c, rest⟩
  · exact ⟨[], Or.inl ⟨rfl, read_nil k⟩⟩
  · rcases exists_written_or_faulty (k + 1) c rest with ⟨w, t, hw⟩ | ⟨rfl, hp, e, he⟩
    · have hlt : t.length < (c :: rest).length := by
        rw [hw, List.length_append]
        exact Nat.lt_add_of_pos_left w.length_text_pos
      rw [hw, read_written]
      obtain ⟨written, ⟨ht, hr⟩ | ⟨u, e, ht, hu, he, hr⟩⟩ :=
        exists_derivation (k + Text.byteLength w.text) t
      · refine ⟨w :: written, Or.inl ⟨?_, ?_⟩⟩
        · rw [List.flatMap_cons, ← ht]
        · rw [hr]
          rfl
      · refine ⟨w :: written, Or.inr ⟨u, e, ?_, hu, ?_, ?_⟩⟩
        · rw [List.flatMap_cons, List.append_assoc, ← ht]
        · rwa [List.flatMap_cons, Text.byteLength_append, ← Nat.add_assoc]
        · rw [hr]
          rfl
    · exact ⟨[], Or.inr ⟨rest, e, rfl, hp, he, read_faulty hp he⟩⟩
termination_by rest.length
decreasing_by exact hlt

theorem parse_cases (text : List Char) :
    ∃ written : List Written,
      (text = written.flatMap Written.text ∧ parse text = ⟨written.map Written.piece, none⟩) ∨
      ∃ (t : List Char) (e : TemplateError), text = written.flatMap Written.text ++ '%' :: t ∧
        t.head? ≠ some '%' ∧ Faulty (Text.byteLength (written.flatMap Written.text) + 1) t e ∧
          parse text = ⟨written.map Written.piece, some e⟩ := by
  have h := exists_derivation 0 text
  simp only [Nat.zero_add] at h
  exact h

theorem exists_written (text : List Char) :
    ∃ (written : List Written) (tail : List Char), text = written.flatMap Written.text ++ tail ∧
      (parse text).pieces = written.map Written.piece := by
  obtain ⟨written, ⟨ht, hr⟩ | ⟨t, e, ht, -, -, hr⟩⟩ := parse_cases text
  · exact ⟨written, [], by rw [ht, List.append_nil], congrArg pieces hr⟩
  · exact ⟨written, '%' :: t, ht, congrArg pieces hr⟩

/-- The grammar derives exactly the texts that are read without a fault. -/
theorem wellFormed_iff {text : List Char} : WellFormed text ↔ (parse text).error? = none := by
  constructor
  · rintro ⟨written, rfl⟩
    rw [parse_text]
  · intro h
    obtain ⟨written, ⟨ht, -⟩ | ⟨t, e, -, -, -, hr⟩⟩ := parse_cases text
    · exact ⟨written, ht⟩
    · rw [hr] at h
      cases h

end Template

/-! ## No text has two derivations -/

/-- The piece a text begins with is determined by the text. -/
theorem Written.append_inj {w w' : Written} {rest rest' : List Char}
    (h : w.text ++ rest = w'.text ++ rest') : w = w' ∧ rest = rest' := by
  cases w with
  | literal c hc =>
    cases w' with
    | literal c' hc' =>
      obtain ⟨rfl, hr⟩ := List.cons.inj h
      exact ⟨rfl, hr⟩
    | percent => exact absurd (List.cons.inj h).1 hc
    | directive s' k' => exact absurd (List.cons.inj h).1 hc
  | percent =>
    cases w' with
    | literal c' hc' => exact absurd (List.cons.inj h).1.symm hc'
    | percent => exact ⟨rfl, List.append_cancel_left h⟩
    | directive s' k' =>
      have hp := s'.head?_text_conversion_ne k' rest'
      have ht : '%' :: rest = s'.text ++ k'.char :: rest' := by
        simpa [text] using h
      exact absurd (congrArg List.head? ht).symm hp
  | directive s k =>
    cases w' with
    | literal c' hc' => exact absurd (List.cons.inj h).1.symm hc'
    | percent =>
      have hp := s.head?_text_conversion_ne k rest
      have ht : s.text ++ k.char :: rest = '%' :: rest' := by
        simpa [text] using h
      exact absurd (congrArg List.head? ht) hp
    | directive s' k' =>
      have ht : s.text ++ k.char :: rest = s'.text ++ k'.char :: rest' := by
        simpa [text] using h
      -- Both spellings are the longest in the same text.
      obtain rfl : s = s' :=
        (s.longestIn_conversion k rest).unique (ht ▸ s'.longestIn_conversion k' rest')
      obtain ⟨hk, hr⟩ := List.cons.inj (List.append_cancel_left ht)
      have hkk : k = k' := by
        have hc := Conversion.ofChar?_char k
        rw [hk, Conversion.ofChar?_char] at hc
        exact (Option.some.inj hc).symm
      exact ⟨by rw [hkk], hr⟩

theorem Written.flatMap_text_cons_ne_nil (w : Written) (written : List Written) :
    (w :: written).flatMap text ≠ [] := by
  intro h
  have hl := congrArg List.length h
  have hpos := w.length_text_pos
  simp only [List.flatMap_cons, List.length_append, List.length_nil] at hl
  omega

/-- No text has two derivations. -/
theorem derivation_injective :
    Function.Injective fun written : List Written => written.flatMap Written.text := by
  intro written written' h
  induction written generalizing written' with
  | nil =>
    cases written' with
    | nil => rfl
    | cons w' written' => exact absurd h.symm (Written.flatMap_text_cons_ne_nil w' written')
  | cons w written ih =>
    cases written' with
    | nil => exact absurd h (Written.flatMap_text_cons_ne_nil w written)
    | cons w' written' =>
      have ht : w.text ++ written.flatMap Written.text =
          w'.text ++ written'.flatMap Written.text := by
        simpa using h
      obtain ⟨rfl, hr⟩ := Written.append_inj ht
      rw [ih hr]

end PercentFormat
