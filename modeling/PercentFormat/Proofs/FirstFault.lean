import PercentFormat.Proofs.Derivation
import PercentFormat.Proofs.Filling

/-!
# The failure that is reported

A template that cannot be formatted has a leftmost place that fails, and formatting fails as that
place does.  Mostly that is a directive.  Which of its causes counts is settled from left to right
as well: first that the template ends in it, then that its conversion is none, then that the
argument it asks for is missing, and only then that the rendered argument is too long.  What has a
text, a directive or not, can still fail for want of room in the output.

## Main definitions

* `DirectiveFails`: how a directive fails, behind what is written before it
* `Overfills`: something that has a text is written where the output has no room for it

## Main results

* `format_error_iff_leftmost`: formatting fails exactly as the leftmost place that fails
-/

namespace PercentFormat

open Text (byteLength)

/-- How a directive fails when the pieces `before` are written before it, and `rest` is all that
follows its `%`.  The attributes are the longest spelling that `rest` begins with, and nothing
behind the conversion counts. -/
inductive DirectiveFails (nilToken : String) (arguments : List Value) (before : List Written)
    (rest : List Char) : FormatError → Prop where
  /-- The attributes are all of `rest`: the position is the length of the template. -/
  | unexpectedEnd (s : Spelling) (longest : s.LongestIn rest) (split : rest = s.text) :
    DirectiveFails nilToken arguments before rest
      (.malformed (.unexpectedEnd (byteLength (before.flatMap Written.text ++ '%' :: rest))))
  /-- The character behind the attributes is no conversion: the position is its own. -/
  | unknownConversion (s : Spelling) (c : Char) (t : List Char) (longest : s.LongestIn rest)
    (split : rest = s.text ++ c :: t) (unknown : Conversion.ofChar? c = none) :
    DirectiveFails nilToken arguments before rest
      (.malformed (.unknownConversion c
        (byteLength (before.flatMap Written.text ++ '%' :: s.text))))
  /-- The directive is complete, and the argument it asks for is missing. -/
  | argumentOutOfRange (s : Spelling) (k : Conversion) (t : List Char)
    (longest : s.LongestIn rest) (split : rest = s.text ++ k.char :: t)
    (missing : arguments.length ≤ s.attributes.selected (before.map Written.piece)) :
    DirectiveFails nilToken arguments before rest
      (.argumentOutOfRange (s.attributes.selected (before.map Written.piece)) arguments.length)
  /-- The argument is there, and padded it exceeds the capacity of a text. -/
  | capacityOverflow (s : Spelling) (k : Conversion) (t : List Char) (v : Value)
    (longest : s.LongestIn rest) (split : rest = s.text ++ k.char :: t)
    (present : arguments[s.attributes.selected (before.map Written.piece)]? = some v)
    (overflow : ¬ s.attributes.Fits (k.coreText s.attributes nilToken v)) :
    DirectiveFails nilToken arguments before rest .capacityOverflow

/-- What is written behind `before` has a text, and with it the output exceeds the capacity. -/
structure Overfills (nilToken : String) (arguments : List Value) (before : List Written)
    (w : Written) : Prop where
  canFill : w.piece.CanFill nilToken arguments (before.map Written.piece)
  full : textCapacity < outputLength nilToken arguments ((before ++ [w]).map Written.piece)

variable {nilToken : String} {arguments : List Value}

/-! ## The kinds of failure -/

theorem byteLength_percent (u t : List Char) :
    byteLength (u ++ '%' :: t) = byteLength u + 1 + byteLength t := by
  simp only [Text.byteLength_append, Text.byteLength_cons, Nat.add_assoc,
    show ('%' : Char).utf8Size = 1 from rfl]

theorem DirectiveFails.of_faulty {before : List Written} {rest : List Char} {e : TemplateError}
    (h : Faulty (byteLength (before.flatMap Written.text) + 1) rest e) :
    DirectiveFails nilToken arguments before rest (.malformed e) := by
  cases h with
  | unexpectedEnd s hs ht =>
    rw [← byteLength_percent]
    exact .unexpectedEnd s hs ht
  | unknownConversion s c t hs ht hc =>
    rw [← byteLength_percent]
    exact .unknownConversion s c t hs ht hc

/-- A directive fails because it is faulty, or because something is in its way. -/
theorem DirectiveFails.cases {before : List Written} {rest : List Char} {e : FormatError}
    (h : DirectiveFails nilToken arguments before rest e) :
    (∃ fault, e = .malformed fault ∧
      Faulty (byteLength (before.flatMap Written.text) + 1) rest fault) ∨
    ∃ (s : Spelling) (k : Conversion) (t : List Char),
      '%' :: rest = (Written.directive s k).text ++ t ∧
        Obstacle nilToken arguments (before.map Written.piece) (Written.directive s k).piece e := by
  have hsplit : ∀ (s : Spelling) (k : Conversion) (t : List Char), rest = s.text ++ k.char :: t →
      '%' :: rest = (Written.directive s k).text ++ t := by
    rintro s k t rfl
    simp [Written.text]
  cases h with
  | unexpectedEnd s hs ht =>
    rw [byteLength_percent]
    exact Or.inl ⟨_, rfl, .unexpectedEnd s hs ht⟩
  | unknownConversion s c t hs ht hc =>
    rw [byteLength_percent]
    exact Or.inl ⟨_, rfl, .unknownConversion s c t hs ht hc⟩
  | argumentOutOfRange s k t hs ht hi => exact Or.inr ⟨s, k, t, hsplit s k t ht, .noArgument hi⟩
  | capacityOverflow s k t v hs ht hv hfits =>
    exact Or.inr ⟨s, k, t, hsplit s k t ht, .noCapacity v hv hfits⟩

/-- What is in the way of something that is written is that it is a directive that fails, or that
it overfills the output. -/
theorem Obstacle.cases_written {before : List Written} {w : Written} {e : FormatError}
    (h : Obstacle nilToken arguments (before.map Written.piece) w.piece e) (t : List Char) :
    (∃ rest, w.text ++ t = '%' :: rest ∧ rest.head? ≠ some '%' ∧
      DirectiveFails nilToken arguments before rest e) ∨
    Overfills nilToken arguments before w ∧ e = .capacityOverflow := by
  cases w with
  | literal c hc =>
    cases h with
    | noRoom hcan hfull => exact Or.inr ⟨⟨hcan, by rwa [List.map_append]⟩, rfl⟩
  | percent =>
    cases h with
    | noRoom hcan hfull => exact Or.inr ⟨⟨hcan, by rwa [List.map_append]⟩, rfl⟩
  | directive s k =>
    have htext : (Written.directive s k).text ++ t = '%' :: (s.text ++ k.char :: t) := by
      simp [Written.text]
    have hs := s.longestIn_conversion k t
    cases h with
    | noArgument hi =>
      exact Or.inl ⟨_, htext, s.head?_text_conversion_ne k t, .argumentOutOfRange s k t hs rfl hi⟩
    | noCapacity v hv hfits =>
      exact Or.inl ⟨_, htext, s.head?_text_conversion_ne k t,
        .capacityOverflow s k t v hs rfl hv hfits⟩
    | noRoom hcan hfull => exact Or.inr ⟨⟨hcan, by rwa [List.map_append]⟩, rfl⟩

theorem Overfills.obstacle {before : List Written} {w : Written}
    (h : Overfills nilToken arguments before w) :
    Obstacle nilToken arguments (before.map Written.piece) w.piece .capacityOverflow := by
  have hfull := h.full
  rw [List.map_append] at hfull
  exact .noRoom h.canFill hfull

/-! ## The leftmost place that fails -/

namespace Template

/-- A piece of a text was written, between what its neighbours were written as. -/
theorem exists_written_of_pieces {text : List Char} {before after : List Piece} {p : Piece}
    (h : (parse text).pieces = before ++ p :: after) :
    ∃ (ws : List Written) (w : Written) (t : List Char), ws.map Written.piece = before ∧
      w.piece = p ∧ text = ws.flatMap Written.text ++ (w.text ++ t) := by
  obtain ⟨written, tail, ht, hp⟩ := exists_written text
  obtain ⟨ws, others, rfl, hws, hothers⟩ := List.map_eq_append_iff.mp (hp.symm.trans h)
  obtain ⟨w, others, rfl, hw, -⟩ := List.map_eq_cons_iff.mp hothers
  refine ⟨ws, w, others.flatMap Written.text ++ tail, hws, hw, ?_⟩
  simp [ht]

theorem exists_directive_of_pieces {text : List Char} {before after : List Piece} {a : Attributes}
    {k : Conversion} (h : (parse text).pieces = before ++ .directive a k :: after) :
    ∃ (ws : List Written) (s : Spelling) (t : List Char), ws.map Written.piece = before ∧
      s.attributes = a ∧
        text = ws.flatMap Written.text ++ '%' :: (s.text ++ k.char :: t) := by
  obtain ⟨ws, w, t, hws, hw, ht⟩ := exists_written_of_pieces h
  cases w with
  | literal c hc => cases hw
  | percent => cases hw
  | directive s k' =>
    cases hw
    exact ⟨ws, s, t, hws, rfl, by simp [ht, Written.text]⟩

/-- What is written is read as a piece, behind the pieces written before it. -/
theorem exists_pieces_of_written (ws : List Written) (w : Written) (t : List Char) :
    ∃ after, (parse (ws.flatMap Written.text ++ (w.text ++ t))).pieces =
      ws.map Written.piece ++ w.piece :: after := by
  have ht : ws.flatMap Written.text ++ (w.text ++ t) = (ws ++ [w]).flatMap Written.text ++ t := by
    simp
  refine ⟨(read ⟨0 + byteLength ((ws ++ [w]).flatMap Written.text), t⟩).pieces, ?_⟩
  rw [ht, parse, Cursor.start, read_append]
  simp [prepend]

end Template

namespace Formatter

/-- **The failure reported is that of the leftmost place that fails.**  Formatting fails with `e`
exactly if the template begins with a derived text of which everything is filled, and what stands
behind that fails with `e`: a `%` that begins no escape but a directive that fails so; or a
character, an escape or a directive that has a text for which the output has no room. -/
theorem format_error_iff_leftmost (f : Formatter) (template : String) (arguments : List Value)
    (e : FormatError) :
    f.format template arguments = .error e ↔
      ∃ before : List Written, Filled f.nilToken arguments [] (before.map Written.piece) ∧
        ((∃ rest, template.toList = before.flatMap Written.text ++ '%' :: rest ∧
            rest.head? ≠ some '%' ∧ DirectiveFails f.nilToken arguments before rest e) ∨
          ∃ w t, template.toList = before.flatMap Written.text ++ (w.text ++ t) ∧
            Overfills f.nilToken arguments before w ∧ e = .capacityOverflow) := by
  rw [format_eq_error, Template.fill_eq_error_iff]
  constructor
  · rintro (⟨before, p, after, hps, hb, he⟩ | ⟨hfill, fault, hfault, rfl⟩)
    · obtain ⟨ws, w, t, rfl, rfl, ht⟩ := Template.exists_written_of_pieces hps
      refine ⟨ws, hb, ?_⟩
      rcases he.cases_written t with ⟨rest, hw, hp, hd⟩ | hfull
      · exact Or.inl ⟨rest, by rw [ht, hw], hp, hd⟩
      · exact Or.inr ⟨w, t, ht, hfull⟩
    · obtain ⟨written, ⟨ht, hr⟩ | ⟨t, e, ht, hp, he, hr⟩⟩ :=
        Template.parse_cases template.toList
      · rw [hr] at hfault
        cases hfault
      · rw [hr] at hfill hfault
        obtain rfl : e = fault := Option.some.inj hfault
        exact ⟨written, hfill, Or.inl ⟨t, ht, hp, .of_faulty he⟩⟩
  · rintro ⟨before, hb, ⟨rest, ht, hp, hd⟩ | ⟨w, t, ht, hfull, rfl⟩⟩
    · rcases hd.cases with ⟨fault, rfl, hf⟩ | ⟨s, k, t, hw, ho⟩
      · rw [ht, Template.parse, Cursor.start, Template.read_append, Nat.zero_add,
          Template.read_faulty hp hf]
        refine Or.inr ⟨?_, fault, rfl, rfl⟩
        rwa [Template.prepend, List.append_nil]
      · obtain ⟨after, hps⟩ := Template.exists_pieces_of_written before (.directive s k) t
        rw [ht, hw]
        exact Or.inl ⟨_, _, after, hps, hb, ho⟩
    · obtain ⟨after, hps⟩ := Template.exists_pieces_of_written before w t
      rw [ht]
      exact Or.inl ⟨_, _, after, hps, hb, hfull.obstacle⟩

/-- The leftmost directive that fails is not always where formatting fails: here it is the unknown
conversion, and the output has no room for the `x` and what the directive in front of it shows. -/
theorem format_error_before_leftmost_directive :
    (∃ (before : List Written) (rest : List Char),
      "x%9223372036854775807s%q".toList = before.flatMap Written.text ++ '%' :: rest ∧
        rest.head? ≠ some '%' ∧
          Fillable defaultNilToken [.text ""] [] (before.map Written.piece) ∧
            DirectiveFails defaultNilToken [.text ""] before rest
              (.malformed (.unknownConversion 'q' 23))) ∧
      ({} : Formatter).format "x%9223372036854775807s%q" [.text ""] = .error .capacityOverflow := by
  have hparse : Template.parse "x%9223372036854775807s%q".toList =
      ⟨[.literal 'x', .directive { width := textCapacity } .string],
        some (.unknownConversion 'q' 23)⟩ := by
    decide +kernel
  refine ⟨?_, ?_⟩
  · obtain ⟨written, ⟨-, hr⟩ | ⟨t, e, ht, hp, he, hr⟩⟩ :=
      Template.parse_cases "x%9223372036854775807s%q".toList
    · rw [hparse] at hr
      cases (Template.mk.inj hr).2
    · rw [hparse, Template.mk.injEq, Option.some.injEq] at hr
      obtain ⟨hpieces, rfl⟩ := hr
      refine ⟨written, t, ht, hp, ?_, .of_faulty he⟩
      rw [← hpieces]
      exact ⟨trivial, ⟨.text "", rfl, by decide⟩, trivial⟩
  · exact format_overflow_of_width (by rw [hparse]) rfl rfl (Nat.le_refl _)

end Formatter

end PercentFormat
