import PercentFormat.Proofs.FirstFault
import PercentFormat.Proofs.LeadingNumber
import PercentFormat.Proofs.Offsets

/-!
# Capacity

There is one failure that neither the template nor the number of arguments accounts for: a text can
exceed the capacity of a text.  There are two texts that grow.  A padded text fails as soon as it is to
be padded, so a precision that would cut it afterwards comes too late; and the output fails where
something is to be put behind it that it has no room for.  Either comes where the scan has got to, so
any failure before it wins.

Everything else that is computed with offsets and machine words stays in range, whatever the
template and the arguments.  A number that is read begins with a digit other than `0`, so it can be
lowered by one where it is an index.  A directive that takes its argument in turn is written with two
bytes at least, so there are fewer turns than bytes.  Therefore the index of a missing argument,
which is one or the other, can be raised by one again for the wording.

## Main definitions

* `Template.InRange`: reading a template computes nothing out of range

## Main results

* `inRange`: so it is for every template
* `format_eq_capacityOverflow`: the failures for want of capacity
* `format_capacityOverflow`: those failures, and that nothing else is out of range
-/

namespace PercentFormat

open Text (byteLength)

/-! ## Numbers that are read -/

/-- A number that is written is not zero, since it does not begin with `0`. -/
theorem Numeral.value_pos (n : Numeral) : 0 < n.value := by
  obtain ⟨d, hd, hl⟩ := n.leading
  obtain ⟨ds, hds⟩ := List.head?_eq_some_iff.mp hd
  -- The first digit alone makes it positive, and saturation does not make it zero.
  have hdigit : 0 < Digits.value [d] := by
    have hlow : '0'.toNat < d.toNat := (Cursor.isLeadingDigit_iff.mp hl).1
    rw [Digits.value, Nat.ofDigitChars_cons]
    show 0 < 10 * 0 + (d.toNat - '0'.toNat)
    omega
  have hpos : 0 < Digits.value n.digits := by
    rw [hds, ← List.singleton_append, Digits.value_append]
    exact Nat.add_pos_left (Nat.mul_pos hdigit (Nat.pow_pos (by decide))) _
  exact Nat.lt_min.mpr ⟨hpos, by decide⟩

theorem Numeral.value_le (n : Numeral) : n.value ≤ wordMax :=
  Nat.min_le_right _ _

/-- A number that is read can be lowered by one, and it fits a word. -/
theorem Cursor.readNumber?_range {c : Cursor} {n : Nat} (h : n ∈ c.readNumber?.1) :
    0 < n ∧ n ≤ wordMax := by
  obtain ⟨m, -, hm, -⟩ := c.exists_numberText
  rw [hm] at h
  obtain ⟨m, rfl, rfl⟩ := Option.map_eq_some_iff.mp h
  exact ⟨m.value_pos, m.value_le⟩

/-! ## Turns -/

namespace Written

theorem two_le_byteLength_directive (s : Spelling) (k : Conversion) :
    2 ≤ byteLength (directive s k).text := by
  have hk := k.char.utf8Size_pos
  rw [text, Text.byteLength_cons, Text.byteLength_append, Text.byteLength_cons,
    show ('%' : Char).utf8Size = 1 from rfl]
  omega

/-- There are at least twice as many bytes as turns. -/
theorem countP_takesTurn_le (ws : List Written) :
    2 * (ws.map piece).countP Piece.takesTurn ≤ byteLength (ws.flatMap text) := by
  induction ws with
  | nil => exact Nat.le_refl 0
  | cons w ws ih =>
    rw [List.map_cons, List.countP_cons, List.flatMap_cons, Text.byteLength_append]
    cases w with
    | literal c h => exact Nat.le_trans ih (Nat.le_add_left _ _)
    | percent => exact Nat.le_trans ih (Nat.le_add_left _ _)
    | directive s k =>
      have hd := two_le_byteLength_directive s k
      split <;> omega

end Written

namespace Template

/-- What reading a text as a template computes with offsets and words. -/
structure InRange (text : List Char) : Prop where
  /-- At every place that a cursor gets to, the text ahead is what is left when the template is cut
  there. -/
  slice : ∀ c, (Cursor.start text).Reaches c → Text.sliceFrom? text c.position = some c.rest
  /-- Reading gets to no other places. -/
  reaches : ∀ c, (Cursor.start text).Reaches c →
    ∀ c' ∈ [c.bump, c.takeLiteral.2, c.readNumber?.2, c.readFlags.2, c.readAttributes.2],
      (Cursor.start text).Reaches c'
  /-- That holds behind a whole directive, too. -/
  reaches_directive : ∀ c piece c', (Cursor.start text).Reaches c →
    c.readDirective = .ok (piece, c') → (Cursor.start text).Reaches c'
  /-- A number that is read, which may be an index, can be lowered by one; and it fits a word. -/
  number : ∀ c : Cursor, ∀ n ∈ c.readNumber?.1, 0 < n ∧ n ≤ wordMax
  /-- Wherever the scan has got to, there were at least twice as many bytes as turns. -/
  turn : ∀ before after, (parse text).pieces = before ++ after →
    2 * before.foldl Piece.turnAfter 0 ≤ byteLength text

/-- **Reading a template computes nothing out of range.** -/
theorem inRange (text : List Char) : InRange text where
  slice _ h := Cursor.sliceFrom?_position h
  reaches c h c' hc' := by
    apply h.trans
    simp only [List.mem_cons, List.not_mem_nil, or_false] at hc'
    rcases hc' with rfl | rfl | rfl | rfl | rfl
    · exact c.bump_reaches
    · exact c.takeWhile_reaches _
    · exact c.readNumber?_reaches
    · exact c.readFlags_reaches
    · exact c.readAttributes_reaches
  reaches_directive _ _ _ h hd := h.trans (Cursor.readDirective_lt hd).1
  number _ _ hn := Cursor.readNumber?_range hn
  turn before after h := by
    obtain ⟨written, tail, rfl, hp⟩ := exists_written text
    obtain ⟨w, w', rfl, rfl, -⟩ := List.map_eq_append_iff.mp (hp.symm.trans h)
    rw [Piece.foldl_turnAfter, Nat.zero_add, List.flatMap_append, Text.byteLength_append,
      Text.byteLength_append, Nat.add_assoc]
    exact Nat.le_trans (Written.countP_takesTurn_le w) (Nat.le_add_right _ _)

end Template

/-! ## The wording of a missing argument -/

/-- Counted from one, a directive asks for the argument whose number it writes, or for the next in
turn. -/
theorem Spelling.succ_selected (s : Spelling) (earlier : List Piece) :
    s.attributes.selected earlier + 1 =
      s.index.elim (earlier.countP Piece.takesTurn + 1) Numeral.value := by
  rw [Attributes.selected, Spelling.attributes]
  cases s.index with
  | none => rfl
  | some n => exact Nat.sub_add_cancel n.value_pos

/-- The index that a directive asks for can be counted from one within a word: it was, if it is
written, and otherwise there are fewer turns than bytes. -/
theorem Written.selected_lt {before : List Written} {s : Spelling}
    (h : byteLength (before.flatMap text) ≤ textCapacity) :
    s.attributes.selected (before.map piece) + 1 ≤ wordMax := by
  rw [s.succ_selected]
  cases s.index with
  | some n => exact n.value_le
  | none =>
    have hturns := countP_takesTurn_le before
    rw [Option.elim_none]
    rw [textCapacity] at h
    rw [wordMax]
    omega

namespace Conversion

/-- The precision of a text does not count for its capacity. -/
theorem render_capacityOverflow_precision {k : Conversion} (hk : k = .string ∨ k = .object)
    (a : Attributes) (p : Option Nat) (nilToken : String) (v : Value) :
    (k.render { a with precision := p } nilToken v).outcome = .error .capacityOverflow ↔
      (k.render a nilToken v).outcome = .error .capacityOverflow := by
  have hcore : k.coreText { a with precision := p } nilToken v = k.coreText a nilToken v := by
    rcases hk with rfl | rfl <;> rfl
  have hfits : Attributes.Fits { a with precision := p } (k.coreText a nilToken v) ↔
      a.Fits (k.coreText a nilToken v) := Iff.rfl
  rw [outcome_render, outcome_render, hcore]
  simp only [hfits]
  split <;> simp

end Conversion

theorem Attributes.not_fits_iff {a : Attributes} {core : List Char} :
    ¬ a.Fits core ↔
      core.length < a.width ∧ textCapacity < byteLength core + (a.width - core.length) := by
  rw [Fits, Classical.not_imp, Nat.not_le]

namespace Formatter

variable {f : Formatter} {template : String} {arguments : List Value}

/-- **What fails for want of capacity**: a complete directive that is reached, with an argument that
is there and is to be padded to more bytes than a text can have; or anything that is reached, has a
text, and would bring the output to more. -/
theorem format_eq_capacityOverflow :
    f.format template arguments = .error .capacityOverflow ↔
      ∃ before : List Written, Filled f.nilToken arguments [] (before.map Written.piece) ∧
        ((∃ (s : Spelling) (k : Conversion) (rest : List Char) (v : Value),
            template.toList = before.flatMap Written.text ++ '%' :: (s.text ++ k.char :: rest) ∧
            arguments[s.attributes.selected (before.map Written.piece)]? = some v ∧
            (k.coreText s.attributes f.nilToken v).length < s.attributes.width ∧
            textCapacity < byteLength (k.coreText s.attributes f.nilToken v) +
              (s.attributes.width - (k.coreText s.attributes f.nilToken v).length)) ∨
          ∃ w rest, template.toList = before.flatMap Written.text ++ (w.text ++ rest) ∧
            Overfills f.nilToken arguments before w) := by
  rw [format_eq_error, Template.fill_eq_error_iff]
  constructor
  · rintro (⟨before, p, after, hps, hb, he⟩ | ⟨-, fault, -, he⟩)
    · obtain ⟨ws, w, t, rfl, rfl, ht⟩ := Template.exists_written_of_pieces hps
      refine ⟨ws, hb, ?_⟩
      rcases he.cases_written t with ⟨rest, hw, -, hd⟩ | ⟨hfull, -⟩
      · cases hd with
        | capacityOverflow s k u v hs hrest hv hfits =>
          obtain ⟨hwidth, hcapacity⟩ := Attributes.not_fits_iff.mp hfits
          exact Or.inl ⟨s, k, u, v, by rw [ht, hw, hrest], hv, hwidth, hcapacity⟩
      · exact Or.inr ⟨w, t, ht, hfull⟩
    · cases he
  · rintro ⟨before, hb, ⟨s, k, rest, v, ht, hv, hwidth, hcapacity⟩ | ⟨w, rest, ht, hfull⟩⟩
    · obtain ⟨after, hps⟩ := Template.exists_pieces_of_written before (.directive s k) rest
      have hfits := Attributes.not_fits_iff.mpr ⟨hwidth, hcapacity⟩
      rw [show (Written.directive s k).text ++ rest = '%' :: (s.text ++ k.char :: rest) by
        simp [Written.text], ← ht] at hps
      exact Or.inl ⟨_, _, after, hps, hb, .noCapacity v hv hfits⟩
    · obtain ⟨after, hps⟩ := Template.exists_pieces_of_written before w rest
      rw [← ht] at hps
      exact Or.inl ⟨_, _, after, hps, hb, hfull.obstacle⟩

/-- The index of a missing argument can be counted from one, as its wording does. -/
theorem succ_le_wordMax_of_argumentOutOfRange (hsize : template.utf8ByteSize ≤ textCapacity)
    {i n : Nat} (h : f.format template arguments = .error (.argumentOutOfRange i n)) :
    i + 1 ≤ wordMax := by
  rw [format_eq_error, Template.fill_eq_error_iff] at h
  obtain ⟨before, p, after, hps, -, he⟩ | ⟨-, fault, -, he⟩ := h
  · cases he with
    | noArgument hmissing =>
      obtain ⟨w, s, rest, rfl, rfl, ht⟩ := Template.exists_directive_of_pieces hps
      apply Written.selected_lt
      rw [← Text.byteLength_toList, ht, Text.byteLength_append] at hsize
      exact Nat.le_trans (Nat.le_add_right _ _) hsize
  · cases he

/-- **What fails for want of capacity, and that nothing else is out of range.**  A call fails for
want of capacity exactly if everything before some place in the template is filled, and there stands

* a complete directive that asks for an argument that is there, whose width exceeds the characters of
  its text, and the bytes of its text with the padding exceed the capacity, in which the precision of a
  text has no say;
* or a character, an escape or a directive that has a text, and the bytes of the output with that text
  exceed the capacity.

Apart from that, no template, argument or nil token makes a computation leave its range:

* the template is cut where it can be cut, an index can be lowered by one, and there are more bytes
  than turns;
* texts that are read as numbers are cut where they can be cut, at every part of a number;
* so are rendered texts, at the precision;
* the index of a missing argument can be raised by one, as long as the template is no longer than a
  text can be. -/
theorem format_capacityOverflow (f : Formatter) (template : String) (arguments : List Value) :
    (f.format template arguments = .error .capacityOverflow ↔
      ∃ before : List Written, Filled f.nilToken arguments [] (before.map Written.piece) ∧
        ((∃ (s : Spelling) (k : Conversion) (rest : List Char) (v : Value),
            template.toList = before.flatMap Written.text ++ '%' :: (s.text ++ k.char :: rest) ∧
            arguments[s.attributes.selected (before.map Written.piece)]? = some v ∧
            (k.coreText s.attributes f.nilToken v).length < s.attributes.width ∧
            textCapacity < byteLength (k.coreText s.attributes f.nilToken v) +
              (s.attributes.width - (k.coreText s.attributes f.nilToken v).length)) ∨
          ∃ w rest, template.toList = before.flatMap Written.text ++ (w.text ++ rest) ∧
            Overfills f.nilToken arguments before w)) ∧
    (∀ k : Conversion, k = .string ∨ k = .object → ∀ a p v,
      (k.render { a with precision := p } f.nilToken v).outcome = .error .capacityOverflow ↔
        (k.render a f.nilToken v).outcome = .error .capacityOverflow) ∧
    Template.InRange template.toList ∧
    (∀ s, Text.ReadsInRange s) ∧
    (∀ (k : Conversion) a padded, ∃ dropped, padded = k.cut a padded ++ dropped ∧
      Text.sliceFrom? padded (byteLength (k.cut a padded)) = some dropped) ∧
    (template.utf8ByteSize ≤ textCapacity → ∀ i n,
      f.format template arguments = .error (.argumentOutOfRange i n) → i + 1 ≤ wordMax) := by
  exact ⟨format_eq_capacityOverflow,
    fun k hk a p v => k.render_capacityOverflow_precision hk a p f.nilToken v,
    Template.inRange _, Text.readsInRange, Conversion.exists_sliceFrom?_cut,
    fun hsize _ _ h => succ_le_wordMax_of_argumentOutOfRange hsize h⟩

/-- A width that saturates, with a text of one character and two bytes: the sum of bytes and padding
is `2 ^ 64`, which a word does not hold, and the precision would leave one character. -/
theorem format_capacityOverflow_saturated :
    ({} : Formatter).format "%99999999999999999999.1s" [.text "é"] = .error .capacityOverflow := by
  have hiff := (format_capacityOverflow {} "%99999999999999999999.1s" [.text "é"]).1
  let width : Numeral := ⟨"99999999999999999999".toList, ⟨'9', rfl, rfl⟩,
    List.all_eq_true.mp rfl⟩
  let one : Numeral := ⟨['1'], ⟨'1', rfl, rfl⟩, List.all_eq_true.mp rfl⟩
  exact hiff.mpr ⟨[], filled_nil, Or.inl ⟨⟨none, [], some width, some (some one)⟩, .string, [],
    .text "é", rfl, rfl, by decide, by decide⟩⟩

/-- No padded text has to exceed the capacity: here the padding comes to just as many bytes as a text
can have, and the `x` in front of it is one too many. -/
theorem format_capacityOverflow_output :
    (¬ ∃ (before : List Written) (s : Spelling) (k : Conversion) (rest : List Char) (v : Value),
      "x%9223372036854775807s%q".toList =
          before.flatMap Written.text ++ '%' :: (s.text ++ k.char :: rest) ∧
        [Value.text ""][s.attributes.selected (before.map Written.piece)]? = some v ∧
        (k.coreText s.attributes defaultNilToken v).length < s.attributes.width ∧
        textCapacity < byteLength (k.coreText s.attributes defaultNilToken v) +
          (s.attributes.width - (k.coreText s.attributes defaultNilToken v).length)) ∧
      ({} : Formatter).format "x%9223372036854775807s%q" [.text ""] = .error .capacityOverflow := by
  have hparse : Template.parse "x%9223372036854775807s%q".toList =
      ⟨[.literal 'x', .directive { width := textCapacity } .string],
        some (.unknownConversion 'q' 23)⟩ := by
    decide +kernel
  refine ⟨?_, ?_⟩
  · rintro ⟨before, s, k, rest, v, ht, hv, hwidth, hcapacity⟩
    obtain ⟨after, hps⟩ := Template.exists_pieces_of_written before (.directive s k) rest
    rw [show (Written.directive s k).text ++ rest = '%' :: (s.text ++ k.char :: rest) by
      simp [Written.text], ← ht, hparse] at hps
    dsimp only at hps
    have hfill : Fillable defaultNilToken [.text ""] []
        [.literal 'x', .directive { width := textCapacity } .string] :=
      ⟨trivial, ⟨.text "", rfl, by decide⟩, trivial⟩
    rw [hps] at hfill
    obtain ⟨v', hv', hfits⟩ := hfill.canFill
    obtain rfl : v = v' := Option.some.inj (hv.symm.trans hv')
    exact Attributes.not_fits_iff.mpr ⟨hwidth, hcapacity⟩ hfits
  · exact format_overflow_of_width (by rw [hparse]) rfl rfl (Nat.le_refl _)

end Formatter

end PercentFormat
