import PercentFormat.Proofs.NumberGrammar

/-!
# The longest float literal at the head of a text

Float literals begin alike: `inf` is the head of `infinity`, `1` of `1.`, of `1.5` and of `1e5`, and
`1e` is none at all.  The reader goes through a text once and never tries a shorter literal after a
longer one, and yet what it takes is the longest there is.  One half of this is that what it takes is
a literal.  The other half is that it takes as much as any literal that stands there, whatever follows
it.  What is taken can be read again on its own, with nothing left over, so that no text writes two
literals.

## Main definitions

* `FloatLiteral.LongestIn`: the longest literal that a text begins with
* `FloatLiteral.ofText?`: the literal that a whole text is
* `FloatLiteral.readLength`: how many bytes the literal has that is read off a text

## Main results

* `IsWritten.read?_eq`: a literal alone is read as a whole
* `read?_eq_some_iff`: the literal that is read is the longest
* `leadingFloat?_longest`: the number at the head of a text is that of the longest literal
-/

namespace PercentFormat

open Text (byteLength)

theorem Text.dropWord?_eq_none_of_length_lt {word s : List Char} (h : s.length < word.length) :
    dropWord? word s = none := by
  by_contra hne
  obtain ⟨rest, hread⟩ := Option.ne_none_iff_exists'.mp hne
  obtain ⟨t, ht, rfl⟩ := exists_of_dropWord? hread
  rw [← ht, List.length_append, List.length_map] at h
  omega

namespace FloatLiteral

/-! ## A literal alone -/

theorem IsExponent.readExponent_eq {exponent : Int} {text : List Char}
    (h : IsExponent exponent text) : readExponent text = (exponent, []) := by
  cases h with
  | absent => rfl
  | present hmark hsign hne hdigits =>
    have hread := readExponent_present hmark hsign hne hdigits []
    simpa using hread

theorem IsFraction.readFraction_eq {fraction point exponentText : List Char} {exponent : Int}
    (h : IsFraction fraction point) (hfraction : ∀ d ∈ fraction, d.isDigit = true)
    (hexponent : IsExponent exponent exponentText) :
    readFraction (point ++ exponentText) = (fraction, exponentText) := by
  cases h with
  | absent =>
    cases exponentText with
    | nil => rfl
    | cons c text => exact readFraction_cons_of_ne (hexponent.head?_ne c rfl).2 text
  | point =>
    obtain ⟨htake, hdrop⟩ :=
      Text.takeWhile_exact hfraction fun c hc => (hexponent.head?_ne c hc).1
    rw [List.cons_append, readFraction, htake, hdrop]

theorem readDecimal?_eq {whole fraction point exponentText : List Char} {exponent : Int}
    (hwhole : ∀ d ∈ whole, d.isDigit = true) (hfraction : ∀ d ∈ fraction, d.isDigit = true)
    (hne : whole ≠ [] ∨ fraction ≠ []) (hpoint : IsFraction fraction point)
    (hexponent : IsExponent exponent exponentText) :
    readDecimal? (whole ++ (point ++ exponentText)) =
      some (.decimal whole fraction exponent, []) := by
  have hnext : ∀ c ∈ (point ++ exponentText).head?, c.isDigit = false := by
    cases hpoint with
    | absent => exact fun c hc => (hexponent.head?_ne c hc).1
    | point =>
      rintro c ⟨⟩
      rfl
  obtain ⟨htake, hdrop⟩ := Text.takeWhile_exact hwhole hnext
  simp only [readDecimal?, htake, hdrop, hpoint.readFraction_eq hfraction hexponent,
    hexponent.readExponent_eq]
  rw [if_neg]
  rwa [Bool.and_eq_true, List.isEmpty_iff, List.isEmpty_iff, not_and_or]

theorem Body.IsWritten.readBody?_eq {body : Body} {text : List Char} (h : body.IsWritten text) :
    readBody? text = some (body, []) := by
  have hread := Text.dropWord?_append text []
  rw [List.append_nil] at hread
  cases h with
  | infinity hword =>
    rcases hword with hword | hword
    · have hlength : text.length = 3 := by rw [← List.length_map Char.toLower, hword]; rfl
      rw [hword] at hread
      rw [readBody?, Text.dropWord?_eq_none_of_length_lt (by rw [hlength]; decide), hread]
    · rw [hword] at hread
      rw [readBody?, hread]
  | nan hword =>
    obtain ⟨c, t, rfl, hc, -⟩ := List.map_eq_cons_iff.mp hword
    have hfirst : ∀ d ∈ (c :: t).head?, d.toLower ≠ 'i' := by
      rintro d ⟨⟩
      rw [hc]
      decide
    have hinfinity := Text.dropWord?_eq_none hfirst "nfinity".toList
    have hinf := Text.dropWord?_eq_none hfirst "nf".toList
    rw [hword] at hread
    rw [readBody?, show "infinity".toList = 'i' :: "nfinity".toList from rfl, hinfinity,
      show "inf".toList = 'i' :: "nf".toList from rfl, hinf, hread]
  | decimal hwhole hfraction hne hpoint hexponent =>
    rw [Text.readBody?_eq_readDecimal? (toLower_head?_decimal hwhole hne hpoint _),
      readDecimal?_eq hwhole hfraction hne hpoint hexponent]

/-- **A literal alone is read as a whole.** -/
theorem IsWritten.read?_eq {literal : FloatLiteral} {text : List Char} (h : literal.IsWritten text) :
    read? text = some (literal, []) := by
  cases h with
  | mk hsign hbody =>
    have hne := hbody.head?_ne []
    rw [List.append_nil] at hne
    rw [read?, Text.takeSign_append hsign hne]
    simp only [hbody.readBody?_eq, Option.map_some]

/-- No text writes two literals. -/
theorem IsWritten.unique {literal literal' : FloatLiteral} {text : List Char}
    (h : literal.IsWritten text) (h' : literal'.IsWritten text) : literal = literal' := by
  have heq := h.read?_eq.symm.trans h'.read?_eq
  exact congrArg Prod.fst (Option.some.inj heq)

theorem IsWritten.ne_nil {literal : FloatLiteral} {text : List Char} (h : literal.IsWritten text) :
    text ≠ [] := by
  rintro rfl
  cases h.read?_eq

/-- The literal that a whole text is, if it is one. -/
def ofText? (text : List Char) : Option FloatLiteral :=
  match read? text with
  | some (literal, []) => some literal
  | _ => none

/-- The texts that are literals as a whole are those that the grammar derives. -/
theorem ofText?_eq_some_iff {text : List Char} {literal : FloatLiteral} :
    ofText? text = some literal ↔ literal.IsWritten text := by
  constructor
  · intro h
    unfold ofText? at h
    split at h
    next hread =>
      cases h
      obtain ⟨t, ht, hs⟩ := exists_isWritten_of_read? hread
      rw [List.append_nil] at hs
      rwa [hs]
    next => cases h
  · intro h
    rw [ofText?, h.read?_eq]

/-! ## The longest literal -/

/-- The text `s` begins with `text`, which writes the literal, and with no longer text that writes
one. -/
structure LongestIn (literal : FloatLiteral) (text s : List Char) : Prop where
  isWritten : literal.IsWritten text
  isPrefix : text <+: s
  longest : ∀ (literal' : FloatLiteral) (text' : List Char), literal'.IsWritten text' →
    text' <+: s → text'.length ≤ text.length

theorem LongestIn.unique {literal literal' : FloatLiteral} {text text' s : List Char}
    (h : literal.LongestIn text s) (h' : literal'.LongestIn text' s) :
    text = text' ∧ literal = literal' := by
  have hlength : text.length = text'.length := by
    apply Nat.le_antisymm
    · exact h'.longest literal text h.isWritten h.isPrefix
    · exact h.longest literal' text' h'.isWritten h'.isPrefix
  obtain rfl : text = text' := by
    rw [List.prefix_iff_eq_take.mp h.isPrefix, List.prefix_iff_eq_take.mp h'.isPrefix, hlength]
  exact ⟨rfl, h.isWritten.unique h'.isWritten⟩

theorem exists_longestIn_of_read? {s rest : List Char} {literal : FloatLiteral}
    (h : read? s = some (literal, rest)) :
    ∃ text, literal.LongestIn text s ∧ s = text ++ rest := by
  obtain ⟨text, htext, rfl⟩ := exists_isWritten_of_read? h
  refine ⟨text, ⟨htext, List.prefix_append _ _, ?_⟩, rfl⟩
  rintro literal' text' htext' ⟨rest', hrest'⟩
  -- Of any other literal, at least as much is read; so no more is left than behind it.
  obtain ⟨_, _, hread, hsuffix⟩ := htext'.exists_read? rest'
  rw [hrest', h] at hread
  cases hread
  have htotal := congrArg List.length hrest'
  have hle := hsuffix.length_le
  rw [List.length_append, List.length_append] at htotal
  omega

/-- **The literal that is read is the longest**, and no literal is missed. -/
theorem read?_eq_some_iff {s rest : List Char} {literal : FloatLiteral} :
    read? s = some (literal, rest) ↔ ∃ text, literal.LongestIn text s ∧ s = text ++ rest := by
  constructor
  · exact exists_longestIn_of_read?
  · rintro ⟨text, hlongest, hs⟩
    -- Something is read, and since that is longest too, it is the same.
    obtain ⟨literal', rest', hread, -⟩ := hlongest.isWritten.exists_read? rest
    rw [← hs] at hread
    obtain ⟨text', hlongest', hs'⟩ := exists_longestIn_of_read? hread
    obtain ⟨rfl, rfl⟩ := hlongest.unique hlongest'
    obtain rfl : rest = rest' := List.append_cancel_left (hs.symm.trans hs')
    exact hread

theorem read?_eq_none_iff {s : List Char} :
    read? s = none ↔ ¬ ∃ (literal : FloatLiteral) (text : List Char),
      text <+: s ∧ literal.IsWritten text := by
  constructor
  · rintro h ⟨literal, text, ⟨rest, rfl⟩, htext⟩
    obtain ⟨_, _, hread, -⟩ := htext.exists_read? rest
    rw [h] at hread
    cases hread
  · intro h
    by_contra hne
    obtain ⟨⟨literal, rest⟩, hread⟩ := Option.ne_none_iff_exists'.mp hne
    obtain ⟨text, htext, rfl⟩ := exists_isWritten_of_read? hread
    exact h ⟨literal, text, List.prefix_append _ _, htext⟩

/-- How many bytes the literal has that is read at the head of a text; none if none is read. -/
def readLength (s : List Char) : Nat :=
  (read? s).elim 0 fun read => byteLength s - byteLength read.2

theorem LongestIn.readLength_eq {literal : FloatLiteral} {text s : List Char}
    (h : literal.LongestIn text s) : readLength s = byteLength text := by
  obtain ⟨rest, rfl⟩ := h.isPrefix
  rw [readLength, read?_eq_some_iff.mpr ⟨text, h, rfl⟩, Option.elim_some, Text.byteLength_append,
    Nat.add_sub_cancel]

theorem byteLength_pos {s : List Char} (h : s ≠ []) : 0 < byteLength s := by
  obtain ⟨c, t, rfl⟩ := List.exists_cons_of_ne_nil h
  exact Nat.add_pos_left c.utf8Size_pos _

/-- A text either begins with no literal, and nothing is read, or with a longest one, and that is
read. -/
theorem longestIn_or_none (s : List Char) :
    (read? s = none ∧ readLength s = 0 ∧
      ¬ ∃ (literal : FloatLiteral) (text : List Char), text <+: s ∧ literal.IsWritten text) ∨
    ∃ (literal : FloatLiteral) (text rest : List Char), s = text ++ rest ∧
      read? s = some (literal, rest) ∧ literal.LongestIn text s := by
  cases h : read? s with
  | none => exact Or.inl ⟨rfl, by rw [readLength, h]; rfl, read?_eq_none_iff.mp h⟩
  | some read =>
    obtain ⟨literal, rest⟩ := read
    obtain ⟨text, hlongest, hs⟩ := read?_eq_some_iff.mp h
    exact Or.inr ⟨literal, text, rest, hs, rfl, hlongest⟩

theorem readLength_eq_iff {s : List Char} {n : Nat} :
    readLength s = n ↔
      (∃ (literal : FloatLiteral) (text : List Char),
        literal.LongestIn text s ∧ byteLength text = n) ∨
      n = 0 ∧ ¬ ∃ (literal : FloatLiteral) (text : List Char),
        text <+: s ∧ literal.IsWritten text := by
  obtain ⟨-, hlength, hnone⟩ | ⟨literal, text, -, -, -, hlongest⟩ := longestIn_or_none s
  · rw [hlength]
    constructor
    · rintro rfl
      exact Or.inr ⟨rfl, hnone⟩
    · rintro (⟨literal, text, hlongest, -⟩ | ⟨hn, -⟩)
      · exact absurd ⟨literal, text, hlongest.isPrefix, hlongest.isWritten⟩ hnone
      · exact hn.symm
  · rw [hlongest.readLength_eq]
    constructor
    · intro hn
      exact Or.inl ⟨literal, text, hlongest, hn⟩
    · rintro (⟨literal', text', hlongest', hn⟩ | ⟨-, hnone⟩)
      · rwa [(hlongest.unique hlongest').1]
      · exact absurd ⟨literal, text, hlongest.isPrefix, hlongest.isWritten⟩ hnone

end FloatLiteral

namespace Text

open FloatLiteral

theorem leadingFloat?_eq_some_iff {text : List Char} {x : Binary64} :
    leadingFloat? text = some x ↔ ∃ (literal : FloatLiteral) (t : List Char),
      literal.LongestIn t (dropBlanks text) ∧ literal.value = x := by
  rw [leadingFloat?, Option.map_eq_some_iff]
  constructor
  · rintro ⟨⟨literal, rest⟩, hread, hx⟩
    obtain ⟨t, hlongest, -⟩ := read?_eq_some_iff.mp hread
    exact ⟨literal, t, hlongest, hx⟩
  · rintro ⟨literal, t, hlongest, hx⟩
    obtain ⟨rest, hs⟩ := hlongest.isPrefix
    exact ⟨(literal, rest), read?_eq_some_iff.mpr ⟨t, hlongest, hs.symm⟩, hx⟩

/-- The number at the head of a text is found by going as far as the longest literal goes, and
taking what stands there for a literal. -/
theorem leadingFloat?_eq_ofText? (text : List Char) :
    ∃ t rest, dropBlanks text = t ++ rest ∧ byteLength t = readLength (dropBlanks text) ∧
      leadingFloat? text = (ofText? t).map FloatLiteral.value ∧
        ((ofText? t).isSome = true ↔ readLength (dropBlanks text) ≠ 0) := by
  rw [leadingFloat?]
  obtain ⟨hread, hlength, -⟩ | ⟨literal, t, rest, hs, hread, hlongest⟩ :=
    longestIn_or_none (dropBlanks text)
  · refine ⟨[], dropBlanks text, rfl, hlength.symm, ?_, ?_⟩
    · rw [hread]
      rfl
    · rw [hlength]
      simp [show ofText? [] = none from rfl]
  · have htext := ofText?_eq_some_iff.mpr hlongest.isWritten
    have hpos := byteLength_pos hlongest.isWritten.ne_nil
    refine ⟨t, rest, hs, hlongest.readLength_eq.symm, ?_, ?_⟩
    · rw [hread, htext]
      rfl
    · rw [htext, hlongest.readLength_eq]
      simp only [Option.isSome_some, true_iff]
      omega

/-- **The number at the head of a text is that of the longest float literal there**, behind the
blanks.  There is one exactly if some text that is not empty stands there and is a literal.  As many
bytes are taken as the longest literal has, or none if there is no literal; so the text is cut
between two characters.  What is taken is then a literal by itself, since it is one that the grammar
derives, and so no number that stands there is lost. -/
theorem leadingFloat?_longest (text : List Char) :
    ((leadingFloat? text).isSome = true ↔ ∃ (literal : FloatLiteral) (t : List Char),
      t ≠ [] ∧ t <+: dropBlanks text ∧ literal.IsWritten t) ∧
    (∀ x, leadingFloat? text = some x ↔ ∃ (literal : FloatLiteral) (t : List Char),
      literal.LongestIn t (dropBlanks text) ∧ literal.value = x) ∧
    (∀ n, readLength (dropBlanks text) = n ↔
      (∃ (literal : FloatLiteral) (t : List Char),
        literal.LongestIn t (dropBlanks text) ∧ byteLength t = n) ∨
      n = 0 ∧ ¬ ∃ (literal : FloatLiteral) (t : List Char),
        t <+: dropBlanks text ∧ literal.IsWritten t) ∧
    (∃ t rest, dropBlanks text = t ++ rest ∧ byteLength t = readLength (dropBlanks text) ∧
      sliceFrom? (dropBlanks text) (readLength (dropBlanks text)) = some rest ∧
      leadingFloat? text = (ofText? t).map FloatLiteral.value ∧
        ((ofText? t).isSome = true ↔ readLength (dropBlanks text) ≠ 0)) ∧
    ∀ (t : List Char) (literal : FloatLiteral), ofText? t = some literal ↔ literal.IsWritten t := by
  refine ⟨?_, fun _ => leadingFloat?_eq_some_iff, fun _ => readLength_eq_iff, ?_,
    fun _ _ => ofText?_eq_some_iff⟩
  · rw [isSome_leadingFloat?_iff]
    constructor
    · rintro ⟨literal, t, ht, hprefix⟩
      exact ⟨literal, t, ht.ne_nil, hprefix, ht⟩
    · rintro ⟨literal, t, -, hprefix, ht⟩
      exact ⟨literal, t, ht, hprefix⟩
  · obtain ⟨t, rest, hs, hlength, hvalue, hsome⟩ := leadingFloat?_eq_ofText? text
    exact ⟨t, rest, hs, hlength, sliceFrom?_eq_some_iff.mpr ⟨t, hs, hlength⟩, hvalue, hsome⟩

example : ["1.e5", "-.", ".e1", "1e+", "infinit", "+é"].map (fun s => readLength s.toList) =
    [4, 0, 0, 1, 3, 0] := by
  decide

end Text

end PercentFormat
