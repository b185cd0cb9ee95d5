import PercentFormat.Proofs.CursorOperations
import PercentFormat.Proofs.Derivation
import PercentFormat.Proofs.Filling

/-!
# Printing templates

A template can be put together from literal texts and directives and then printed: every `%` of a
literal text is doubled, and numbers that are zero are left out.  Reading the printed template
finds the same segments again, whatever stands next to each, and formatting it evaluates them from
left to right.

## Main definitions

* `Attributes.Representable`: no number exceeds what a template can hold
* `Segment`: a literal text, or a directive with representable attributes
* `Attributes.text`, `Segment.text`, `encode`: the printed form
* `evaluate`: the value of segments, by the arguments they ask for

## Main results

* `parseAttributes_printed`: printed attributes are read as what was printed
* `format_encode`: formatting a printed template is evaluating its segments
-/

namespace PercentFormat

open Text (byteLength)

/-! ## Printed numbers -/

namespace Digits

theorem exists_leadingDigit {n : Nat} (h : 0 < n) :
    ∃ d ∈ (ofNat n).head?, Cursor.isLeadingDigit d = true := by
  by_cases hlt : n < 10
  · rw [ofNat, Nat.toDigits_of_lt_base hlt]
    refine ⟨_, rfl, ?_⟩
    have hall : ∀ m : Fin 10, 0 < m.val → Cursor.isLeadingDigit m.val.digitChar = true := by
      decide
    exact hall ⟨n, hlt⟩ h
  · obtain ⟨d, hd, hl⟩ := exists_leadingDigit (show 0 < n / 10 by omega)
    refine ⟨d, ?_, hl⟩
    rw [ofNat] at hd
    rw [ofNat, Nat.toDigits_of_base_le (by decide) (Nat.le_of_not_lt hlt), List.head?_append, hd]
    rfl
termination_by n

end Digits

/-- A number in decimal; zero is left out. -/
def Numeral.ofNat? (n : Nat) : Option Numeral :=
  if h : 0 < n then
    some ⟨Digits.ofNat n, Digits.exists_leadingDigit h, fun _ => Digits.isDigit_of_mem_ofNat⟩
  else none

/-- A number in decimal; of zero nothing is printed. -/
def numberText (n : Nat) : List Char :=
  if n = 0 then [] else Digits.ofNat n

theorem Numeral.numberText_ofNat? (n : Nat) :
    Spelling.numberText (ofNat? n) = numberText n := by
  rw [ofNat?, numberText]
  by_cases h : 0 < n
  · rw [dif_pos h, if_neg (Nat.ne_of_gt h)]
    rfl
  · rw [dif_neg h, if_pos (Nat.eq_zero_of_not_pos h)]
    rfl

theorem Numeral.numberValue_ofNat? {n : Nat} (hn : n ≤ wordMax) :
    Spelling.numberValue (ofNat? n) = n := by
  rw [ofNat?]
  by_cases h : 0 < n
  · rw [dif_pos h]
    show min (Digits.value (Digits.ofNat n)) wordMax = n
    rw [Digits.value_ofNat, Nat.min_eq_left hn]
  · rw [dif_neg h]
    exact (Nat.eq_zero_of_not_pos h).symm

/-! ## Printed attributes -/

theorem Flags.ofList_toList (flags : Flags) : ofList flags.toList = flags := by
  obtain ⟨space, plus, leftJustify, zero, alternate⟩ := flags
  cases space <;> cases plus <;> cases leftJustify <;> cases zero <;> cases alternate <;> rfl

namespace Attributes

/-- No number in the attributes exceeds the greatest that a template can hold. -/
structure Representable (a : Attributes) : Prop where
  /-- An index counts from one where it is written. -/
  index : ∀ i ∈ a.index, i + 1 ≤ wordMax
  width : a.width ≤ wordMax
  precision : ∀ n ∈ a.precision, n ≤ wordMax

instance (a : Attributes) : Decidable a.Representable :=
  decidable_of_iff ((∀ i ∈ a.index, i + 1 ≤ wordMax) ∧ a.width ≤ wordMax ∧
    ∀ n ∈ a.precision, n ≤ wordMax)
    ⟨fun h => ⟨h.1, h.2.1, h.2.2⟩, fun h => ⟨h.index, h.width, h.precision⟩⟩

/-- The characters that attributes are printed as: the index, the flags, the width, and the
precision behind its point. -/
def text (a : Attributes) : List Char :=
  (a.index.elim [] fun i => numberText (i + 1) ++ ['$']) ++
    (a.flags.toList.map Flag.char ++
      (numberText a.width ++ a.precision.elim [] fun n => '.' :: numberText n))

/-- The spelling that attributes are printed as. -/
def spelling (a : Attributes) : Spelling where
  index := a.index.bind fun i => Numeral.ofNat? (i + 1)
  flags := a.flags.toList
  width := Numeral.ofNat? a.width
  precision := a.precision.map Numeral.ofNat?

theorem text_spelling (a : Attributes) : a.spelling.text = a.text := by
  obtain ⟨index, flags, width, precision⟩ := a
  have hindex : Spelling.indexText (index.bind fun i => Numeral.ofNat? (i + 1)) =
      index.elim [] fun i => numberText (i + 1) ++ ['$'] := by
    cases index with
    | none => rfl
    | some i =>
      rw [Option.bind_some, Option.elim_some, ← Numeral.numberText_ofNat?, Numeral.ofNat?,
        dif_pos (Nat.succ_pos i)]
      rfl
  have hprecision : Spelling.precisionText (precision.map Numeral.ofNat?) =
      precision.elim [] fun n => '.' :: numberText n := by
    cases precision with
    | none => rfl
    | some n =>
      rw [Option.elim_some, ← Numeral.numberText_ofNat?]
      rfl
  simp only [Spelling.text, spelling, text, hindex, hprecision, Numeral.numberText_ofNat?]

theorem attributes_spelling {a : Attributes} (h : a.Representable) :
    a.spelling.attributes = a := by
  obtain ⟨index, flags, width, precision⟩ := a
  obtain ⟨hi, hw, hp⟩ := h
  have hindex : (index.bind fun i => Numeral.ofNat? (i + 1)).map (fun n => n.value - 1) =
      index := by
    cases index with
    | none => rfl
    | some i =>
      have hvalue := Numeral.numberValue_ofNat? (hi i rfl)
      rw [Numeral.ofNat?, dif_pos (Nat.succ_pos i)] at hvalue
      rw [Option.bind_some, Numeral.ofNat?, dif_pos (Nat.succ_pos i)]
      exact congrArg some (Nat.sub_eq_of_eq_add hvalue)
  have hprecision : (precision.map Numeral.ofNat?).map Spelling.numberValue = precision := by
    cases precision with
    | none => rfl
    | some n => exact congrArg some (Numeral.numberValue_ofNat? (hp n rfl))
  simp only [Spelling.attributes, spelling, hindex, hprecision, Flags.ofList_toList,
    Numeral.numberValue_ofNat? hw]

end Attributes

namespace Cursor

theorem readAttributes_printed {a : Attributes} (h : a.Representable) (k : Conversion)
    (position : Nat) (rest : List Char) :
    readAttributes ⟨position, a.text ++ k.char :: rest⟩ =
      (a, ⟨position + byteLength a.text, k.char :: rest⟩) := by
  have hread := readAttributes_longest (a.spelling.longestIn_conversion k rest) position
  rwa [Attributes.attributes_spelling h, Attributes.text_spelling] at hread

/-- **Printed attributes are read as what was printed**, and the cursor stops at the conversion. -/
theorem parseAttributes_printed {a : Attributes} (h : a.Representable) (k : Conversion)
    (position : Nat) (rest : List Char) :
    parseAttributes ⟨position, a.text ++ k.char :: rest⟩ =
      (.ok a, ⟨position + byteLength a.text, k.char :: rest⟩) := by
  have hread := readAttributes_printed h k position rest
  rw [parseAttributes_of_not_isAtEnd (by rw [hread]; exact Bool.false_ne_true), hread]

end Cursor

/-! ## Printed templates -/

/-- A part of a template: a text that stands for itself, or a directive. -/
inductive Segment where
  | literal (text : List Char)
  | directive (attributes : Attributes) (representable : attributes.Representable)
    (conversion : Conversion)

namespace Segment

/-- The characters that a segment is printed as. -/
def text : Segment → List Char
  | literal text => text.flatMap fun c => if c = '%' then ['%', '%'] else [c]
  | directive a _ k => '%' :: (a.text ++ [k.char])

/-- The pieces that a segment stands for. -/
def pieces : Segment → List Piece
  | literal text => text.map .literal
  | directive a _ k => [.directive a k]

/-- What is written where a segment is printed. -/
def written : Segment → List Written
  | literal text => text.map fun c => if h : c = '%' then .percent else .literal c h
  | directive a _ k => [.directive a.spelling k]

theorem text_written (s : Segment) : s.written.flatMap Written.text = s.text := by
  cases s with
  | literal text =>
    rw [written, Segment.text, List.flatMap_map]
    congr 1
    funext c
    by_cases h : c = '%'
    · rw [dif_pos h, if_pos h]
      rfl
    · rw [dif_neg h, if_neg h]
      rfl
  | directive a h k =>
    rw [written, Segment.text, List.flatMap_singleton, Written.text, a.text_spelling]

theorem piece_written (s : Segment) : s.written.map Written.piece = s.pieces := by
  cases s with
  | literal text =>
    rw [written, pieces, List.map_map]
    congr 1
    funext c
    by_cases h : c = '%'
    · simp [h, Written.piece]
    · simp [h, Written.piece]
  | directive a h k =>
    rw [written, pieces, List.map_singleton, Written.piece, Attributes.attributes_spelling h]

end Segment

/-- The template that segments are printed as. -/
def encode (segments : List Segment) : String :=
  String.ofList (segments.flatMap Segment.text)

example :
    encode [.literal "50%".toList,
      .directive { index := some 4, width := 5, precision := some 0 } (by decide) .string] =
      "50%%%5$5.s" := by
  decide +kernel

theorem Template.parse_encode (segments : List Segment) :
    parse (encode segments).toList = ⟨segments.flatMap Segment.pieces, none⟩ := by
  have htext : segments.flatMap Segment.text =
      (segments.flatMap Segment.written).flatMap Written.text := by
    rw [List.flatMap_assoc]
    exact congrArg segments.flatMap (funext fun s => s.text_written.symm)
  have hpieces : (segments.flatMap Segment.written).map Written.piece =
      segments.flatMap Segment.pieces := by
    rw [List.map_flatMap]
    exact congrArg segments.flatMap (funext Segment.piece_written)
  rw [encode, String.toList_ofList, htext, parse_text, hpieces]

/-! ## Evaluation -/

section

variable (nilToken : String) (arguments : List Value)

/-- The text of segments, from left to right, behind an output of `length` bytes, where `turn` is the
number of the argument whose turn it is.  The first directive that asks for an argument that is not
there, or whose padded text does not fit, ends it; and so does the first segment with a text for
which the output has no room. -/
def evaluate : Nat → Nat → List Segment → Except FormatError (List Char)
  | _, _, [] => .ok []
  | turn, length, .literal text :: segments =>
    if length + byteLength text ≤ textCapacity then
      (text ++ ·) <$> evaluate turn (length + byteLength text) segments
    else .error .capacityOverflow
  | turn, length, .directive a _ k :: segments => do
    let v ← match arguments[a.index.getD turn]? with
      | some v => .ok v
      | none => .error (.argumentOutOfRange (a.index.getD turn) arguments.length)
    let text ← (k.render a nilToken v).outcome
    if length + byteLength text ≤ textCapacity then
      (text ++ ·) <$>
        evaluate (if a.index.isSome then turn else turn + 1) (length + byteLength text) segments
    else .error .capacityOverflow

end

variable {nilToken : String} {arguments : List Value}

namespace Template

theorem outcome_fillPieces_literal (turn : Nat) {length : Nat} (hroom : length ≤ textCapacity)
    (text : List Char) (ps : List Piece) :
    (fillPieces nilToken arguments turn length (text.map .literal ++ ps)).outcome =
      if length + byteLength text ≤ textCapacity then
        (text ++ ·) <$>
          (fillPieces nilToken arguments turn (length + byteLength text) ps).outcome
      else .error .capacityOverflow := by
  induction text generalizing length with
  | nil => exact (id_map _).symm.trans (if_pos hroom).symm
  | cons c text ih =>
    have hc : length + byteLength [c] = length + c.utf8Size := rfl
    rw [List.map_cons, List.cons_append, outcome_fillPieces_cons]
    show (if length + byteLength [c] ≤ textCapacity then _ else _) = _
    rw [Text.byteLength_cons c text, ← Nat.add_assoc, hc]
    by_cases hfirst : length + c.utf8Size ≤ textCapacity
    · rw [if_pos hfirst, Piece.turnAfter, ih hfirst]
      split
      · cases (fillPieces nilToken arguments turn
          (length + c.utf8Size + byteLength text) ps).outcome <;> rfl
      · rfl
    · rw [if_neg hfirst, if_neg (by omega)]

/-- Filling the pieces of segments is evaluating the segments. -/
theorem outcome_fillPieces_segments (turn : Nat) {length : Nat} (hroom : length ≤ textCapacity)
    (segments : List Segment) :
    (fillPieces nilToken arguments turn length (segments.flatMap Segment.pieces)).outcome =
      evaluate nilToken arguments turn length segments := by
  induction segments generalizing turn length with
  | nil => rfl
  | cons s segments ih =>
    cases s with
    | literal text =>
      rw [List.flatMap_cons, Segment.pieces, outcome_fillPieces_literal turn hroom, evaluate]
      split
      next hmore => rw [ih turn hmore]
      next => rfl
    | directive a h k =>
      rw [List.flatMap_cons, Segment.pieces, List.singleton_append, outcome_fillPieces_cons,
        evaluate, outcome_fill_directive]
      cases arguments[a.index.getD turn]? with
      | none => rfl
      | some v =>
        show (k.render a nilToken v).outcome >>= _ = (k.render a nilToken v).outcome >>= _
        congr 1
        funext text
        split
        next hmore => rw [ih _ hmore, Piece.turnAfter]
        next => rfl

end Template

namespace Formatter

/-- **Printing loses nothing.**  The attributes of every printed directive are read as what they
were, wherever they stand, and the cursor stops at the conversion; the printed template is read as
its segments, whatever stands next to each; and formatting it is evaluating the segments from left
to right. -/
theorem format_encode (f : Formatter) (segments : List Segment) (arguments : List Value) :
    (∀ a h k, Segment.directive a h k ∈ segments → ∀ position rest,
      Cursor.parseAttributes ⟨position, a.text ++ k.char :: rest⟩ =
        (.ok a, ⟨position + byteLength a.text, k.char :: rest⟩)) ∧
      Template.parse (encode segments).toList = ⟨segments.flatMap Segment.pieces, none⟩ ∧
        f.format (encode segments) arguments =
          String.ofList <$> evaluate f.nilToken arguments 0 0 segments := by
  refine ⟨fun a h k _ => Cursor.parseAttributes_printed h k, Template.parse_encode segments, ?_⟩
  rw [format_eq, Template.parse_encode, Template.outcome_fill,
    Template.outcome_fillPieces_segments 0 (Nat.zero_le _)]
  cases evaluate f.nilToken arguments 0 0 segments <;> rfl

/-- Missing arguments and padding are not all that ends an evaluation: here the first two segments
have a text, the third asks for an argument that is not there, and the evaluation does not get to it,
since the output has no room for the first two. -/
theorem format_encode_overflow :
    encode [.literal ['x'], .directive { width := textCapacity } (by decide) .string,
        .directive {} (by decide) .string] = "x%9223372036854775807s%s" ∧
      Fillable defaultNilToken [.text ""] []
        [.literal 'x', .directive { width := textCapacity } .string] ∧
      [Value.text ""].length ≤ ({} : Attributes).selected
        [.literal 'x', .directive { width := textCapacity } .string] ∧
      ({} : Formatter).format (encode [.literal ['x'],
          .directive { width := textCapacity } (by decide) .string,
          .directive {} (by decide) .string]) [.text ""] = .error .capacityOverflow := by
  refine ⟨by decide +kernel, ⟨trivial, ⟨.text "", rfl, by decide⟩, trivial⟩, by decide, ?_⟩
  have hparse := Template.parse_encode [.literal ['x'],
    .directive { width := textCapacity } (by decide) .string, .directive {} (by decide) .string]
  exact format_overflow_of_width (by rw [hparse]; rfl) rfl rfl (Nat.le_refl _)

end Formatter

end PercentFormat
