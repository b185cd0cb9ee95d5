import PercentFormat.Formatter.Basic
import PercentFormat.Proofs.Rendering

/-!
# The text of a template, apart from the log

Which argument a directive asks for depends on what stands before it only through the number of
directives there that have no index.  A row of pieces is filled if each directive, where it
stands, asks for an argument that is there and whose padded text fits, and if the output has room
for all of them; if not, the first piece with something in its way decides how filling fails.

## Main definitions

* `Attributes.selected`: the argument a directive asks for, behind given pieces
* `Fillable`, `output`: whether every piece of a row has a text, and the text of the row
* `Filled`: whether the output has room for it, too
* `Obstacle`: what is in the way of a piece

## Main results

* `fillAfter_eq_ok_iff`: pieces are filled exactly if nothing is in the way
* `fillAfter_eq_error_iff`: filling fails at the first piece with something in its way
* `format_eq`: formatting is reading and filling
-/

namespace PercentFormat

open Text (byteLength)

/-! ## The argument a directive asks for -/

namespace Piece

/-- Whether a piece takes its argument in turn. -/
def takesTurn : Piece → Bool
  | literal _ => false
  | directive a _ => a.index.isNone

theorem foldl_turnAfter (turn : Nat) (ps : List Piece) :
    ps.foldl turnAfter turn = turn + ps.countP takesTurn := by
  induction ps generalizing turn with
  | nil => rfl
  | cons p ps ih =>
    rw [List.foldl_cons, ih, List.countP_cons]
    cases p with
    | literal c => rfl
    | directive a k =>
      cases h : a.index with
      | none => simp [turnAfter, takesTurn, h, Nat.add_comm, Nat.add_left_comm]
      | some i => simp [turnAfter, takesTurn, h]

theorem turnAfter_countP (earlier : List Piece) (p : Piece) :
    p.turnAfter (earlier.countP takesTurn) = (earlier ++ [p]).countP takesTurn := by
  rw [List.countP_append]
  exact foldl_turnAfter _ [p]

end Piece

/-- The argument a directive asks for when the pieces `earlier` stand before it: the one its
index names, or else as many as there are directives without an index before it. -/
def Attributes.selected (a : Attributes) (earlier : List Piece) : Nat :=
  a.index.getD (earlier.countP Piece.takesTurn)

/-! ## Whether pieces can be filled, and with what -/

section

variable (nilToken : String) (arguments : List Value)

namespace Piece

/-- A piece behind `earlier` has a text: the argument it asks for is there, and its padded text
fits. -/
def CanFill (earlier : List Piece) : Piece → Prop
  | literal _ => True
  | directive a k =>
    ∃ v, arguments[a.selected earlier]? = some v ∧ a.Fits (k.coreText a nilToken v)

/-- The text of a piece behind `earlier`, where it has one. -/
def output (earlier : List Piece) : Piece → List Char
  | literal c => [c]
  | directive a k => arguments[a.selected earlier]?.elim [] fun v => (k.render a nilToken v).text

end Piece

/-- Each of the pieces that follow `earlier` has a text. -/
def Fillable : List Piece → List Piece → Prop
  | _, [] => True
  | earlier, p :: ps => p.CanFill nilToken arguments earlier ∧ Fillable (earlier ++ [p]) ps

/-- The text of the pieces that follow `earlier`. -/
def output : List Piece → List Piece → List Char
  | _, [] => []
  | earlier, p :: ps => p.output nilToken arguments earlier ++ output (earlier ++ [p]) ps

/-- How many bytes the output has behind the first pieces of a template. -/
def outputLength (ps : List Piece) : Nat :=
  byteLength (output nilToken arguments [] ps)

/-- The pieces that follow `earlier` are filled: each has a text, and the output has room for all
of them. -/
structure Filled (earlier ps : List Piece) : Prop where
  fillable : Fillable nilToken arguments earlier ps
  room : outputLength nilToken arguments (earlier ++ ps) ≤ textCapacity

/-- What is in the way of a piece behind `earlier`, and the failure it causes. -/
inductive Obstacle (earlier : List Piece) : Piece → FormatError → Prop where
  /-- The argument it asks for is not there. -/
  | noArgument {a : Attributes} {k : Conversion}
    (missing : arguments.length ≤ a.selected earlier) :
    Obstacle earlier (.directive a k) (.argumentOutOfRange (a.selected earlier) arguments.length)
  /-- The argument is there, and its padded text does not fit. -/
  | noCapacity {a : Attributes} {k : Conversion} (v : Value)
    (present : arguments[a.selected earlier]? = some v)
    (overflow : ¬ a.Fits (k.coreText a nilToken v)) :
    Obstacle earlier (.directive a k) .capacityOverflow
  /-- It has a text, and the output has no room for it. -/
  | noRoom {p : Piece} (canFill : p.CanFill nilToken arguments earlier)
    (full : textCapacity < outputLength nilToken arguments (earlier ++ [p])) :
    Obstacle earlier p .capacityOverflow

/-- Fills the pieces that follow `earlier`, at the turn and behind the output that those leave. -/
def Template.fillAfter (earlier ps : List Piece) : Run (List Char) :=
  fillPieces nilToken arguments (earlier.countP Piece.takesTurn)
    (outputLength nilToken arguments earlier) ps

end

variable {nilToken : String} {arguments : List Value}

theorem output_append (earlier ps qs : List Piece) :
    output nilToken arguments earlier (ps ++ qs) =
      output nilToken arguments earlier ps ++ output nilToken arguments (earlier ++ ps) qs := by
  induction ps generalizing earlier with
  | nil => rw [List.append_nil]; rfl
  | cons p ps ih =>
    rw [List.cons_append, output, output, ih, ← List.append_cons, List.append_assoc]

theorem outputLength_append (ps qs : List Piece) :
    outputLength nilToken arguments (ps ++ qs) =
      outputLength nilToken arguments ps + byteLength (output nilToken arguments ps qs) := by
  rw [outputLength, outputLength, output_append, Text.byteLength_append, List.nil_append]

theorem outputLength_concat (earlier : List Piece) (p : Piece) :
    outputLength nilToken arguments (earlier ++ [p]) =
      outputLength nilToken arguments earlier + byteLength (p.output nilToken arguments earlier) := by
  rw [outputLength_append, output, output, List.append_nil]

theorem Fillable.canFill {earlier before after : List Piece} {p : Piece}
    (h : Fillable nilToken arguments earlier (before ++ p :: after)) :
    p.CanFill nilToken arguments (earlier ++ before) := by
  induction before generalizing earlier with
  | nil =>
    rw [List.append_nil]
    exact h.1
  | cons q before ih =>
    have hp := ih h.2
    rwa [← List.append_cons] at hp

theorem filled_nil : Filled nilToken arguments [] [] :=
  ⟨trivial, Nat.zero_le _⟩

theorem Filled.nil {earlier ps : List Piece} (h : Filled nilToken arguments earlier ps) :
    Filled nilToken arguments (earlier ++ ps) [] :=
  ⟨trivial, by rw [List.append_nil]; exact h.room⟩

theorem filled_cons_iff {earlier : List Piece} {p : Piece} {ps : List Piece} :
    Filled nilToken arguments earlier (p :: ps) ↔
      Filled nilToken arguments earlier [p] ∧ Filled nilToken arguments (earlier ++ [p]) ps := by
  constructor
  · rintro ⟨⟨hp, hps⟩, hroom⟩
    rw [List.append_cons] at hroom
    refine ⟨⟨⟨hp, trivial⟩, ?_⟩, hps, hroom⟩
    rw [outputLength_append] at hroom
    exact Nat.le_trans (Nat.le_add_right _ _) hroom
  · rintro ⟨⟨⟨hp, -⟩, -⟩, hps, hroom⟩
    rw [← List.append_cons] at hroom
    exact ⟨⟨hp, hps⟩, hroom⟩

/-! ## One piece -/

theorem outcome_selectArgument (i : Nat) :
    (selectArgument arguments i).outcome =
      arguments[i]?.elim (.error (.argumentOutOfRange i arguments.length)) .ok := by
  rw [selectArgument]
  cases arguments[i]? <;> rfl

/-- How filling a directive ends: the argument is looked up first, then it is rendered. -/
theorem outcome_fill_directive (a : Attributes) (k : Conversion) (turn : Nat) :
    ((Piece.directive a k).fill nilToken arguments turn).outcome =
      match arguments[a.index.getD turn]? with
      | none => .error (.argumentOutOfRange (a.index.getD turn) arguments.length)
      | some v => (k.render a nilToken v).outcome := by
  rw [Piece.fill, Run.outcome_bind, outcome_selectArgument]
  cases arguments[a.index.getD turn]? <;> rfl

namespace Piece

theorem fill_of_canFill {earlier : List Piece} {p : Piece}
    (h : p.CanFill nilToken arguments earlier) :
    (p.fill nilToken arguments (earlier.countP takesTurn)).outcome =
      .ok (p.output nilToken arguments earlier) := by
  cases p with
  | literal c => rfl
  | directive a k =>
    obtain ⟨v, hv, hfits⟩ := h
    have hrender : (k.render a nilToken v).outcome = .ok (k.rendered a nilToken v) := by
      rw [k.outcome_render, if_pos hfits]
    rw [output, hv, Option.elim_some, Run.text_of_ok hrender, outcome_fill_directive]
    rw [Attributes.selected] at hv
    rw [hv]
    exact hrender

theorem canFill_of_fill {earlier : List Piece} {p : Piece} {text : List Char}
    (h : (p.fill nilToken arguments (earlier.countP takesTurn)).outcome = .ok text) :
    p.CanFill nilToken arguments earlier := by
  cases p with
  | literal c => exact trivial
  | directive a k =>
    rw [outcome_fill_directive] at h
    cases hv : arguments[a.index.getD (earlier.countP takesTurn)]? with
    | none =>
      rw [hv] at h
      cases h
    | some v =>
      refine ⟨v, hv, Decidable.byContradiction fun hfits => ?_⟩
      simp only [hv, k.outcome_render, if_neg hfits] at h
      cases h

end Piece

/-- What is in the way of a piece shows when it is filled, unless it is the room behind it. -/
theorem Obstacle.outcome_fill {earlier : List Piece} {p : Piece} {e : FormatError}
    (h : Obstacle nilToken arguments earlier p e) :
    (p.fill nilToken arguments (earlier.countP Piece.takesTurn)).outcome = .error e ∨
      p.CanFill nilToken arguments earlier ∧
        textCapacity < outputLength nilToken arguments (earlier ++ [p]) ∧
          e = .capacityOverflow := by
  cases h with
  | noArgument hmissing =>
    rw [Attributes.selected] at hmissing ⊢
    rw [outcome_fill_directive, List.getElem?_eq_none hmissing]
    exact Or.inl rfl
  | noCapacity v hv hfits =>
    rw [Attributes.selected] at hv
    rw [outcome_fill_directive, hv]
    exact Or.inl ((Conversion.outcome_render _ nilToken v _).trans (if_neg hfits))
  | noRoom hcan hfull => exact Or.inr ⟨hcan, hfull, rfl⟩

namespace Template

/-- How filling a row ends: the first piece is filled, then the output makes room for its text, and
then it is for the others to be filled. -/
theorem outcome_fillPieces_cons (turn length : Nat) (p : Piece) (ps : List Piece) :
    (fillPieces nilToken arguments turn length (p :: ps)).outcome =
      (p.fill nilToken arguments turn).outcome >>= fun text =>
        if length + byteLength text ≤ textCapacity then
          (text ++ ·) <$> (fillPieces nilToken arguments (p.turnAfter turn)
            (length + byteLength text) ps).outcome
        else .error .capacityOverflow := by
  rw [fillPieces, Run.outcome_bind]
  congr 1
  funext text
  split
  next hroom => rw [reserve_of_le hroom, pure_bind, ← map_eq_pure_bind, Run.outcome_map]
  next hroom =>
    rw [reserve_overflow (Nat.lt_of_not_le hroom), Run.bind_of_error (Run.outcome_fail _)]

theorem fillAfter_nil (ps : List Piece) :
    fillAfter nilToken arguments [] ps = fillPieces nilToken arguments 0 0 ps :=
  rfl

/-- A piece that is filled hands over to those behind it. -/
theorem fillAfter_cons {earlier : List Piece} {p : Piece}
    (h : Filled nilToken arguments earlier [p]) (ps : List Piece) :
    fillAfter nilToken arguments earlier (p :: ps) = (do
      let text ← p.fill nilToken arguments (earlier.countP Piece.takesTurn)
      let rest ← fillAfter nilToken arguments (earlier ++ [p]) ps
      return text ++ rest) := by
  have hroom := h.room
  rw [outputLength_concat] at hroom
  rw [fillAfter, fillPieces, fillAfter, ← Piece.turnAfter_countP, outputLength_concat]
  refine Run.bind_congr fun text htext => ?_
  obtain rfl : p.output nilToken arguments earlier = text :=
    Except.ok.inj ((Piece.fill_of_canFill h.fillable.1).symm.trans htext)
  rw [reserve_of_le hroom, pure_bind]

/-- What is in the way of a piece ends filling, and nothing is reported of it but what filling the
piece reports. -/
theorem fillAfter_cons_of_obstacle {earlier : List Piece} {p : Piece} {e : FormatError}
    (h : Obstacle nilToken arguments earlier p e) (ps : List Piece) :
    fillAfter nilToken arguments earlier (p :: ps) =
      ⟨(p.fill nilToken arguments (earlier.countP Piece.takesTurn)).events, .error e⟩ := by
  rw [fillAfter, fillPieces]
  rcases h.outcome_fill with hfill | ⟨hcan, hfull, rfl⟩
  · exact Run.bind_of_error hfill _
  · rw [outputLength_concat] at hfull
    rw [Run.bind_of_ok (Piece.fill_of_canFill hcan), reserve_overflow hfull,
      Run.bind_of_error (Run.outcome_fail _)]
    simp [Event.ofError?]

end Template

theorem exists_obstacle {earlier : List Piece} {p : Piece}
    (h : ¬ Filled nilToken arguments earlier [p]) :
    ∃ e, Obstacle nilToken arguments earlier p e := by
  by_cases hcan : p.CanFill nilToken arguments earlier
  · exact ⟨_, .noRoom hcan (Nat.lt_of_not_le fun hroom => h ⟨⟨hcan, trivial⟩, hroom⟩)⟩
  · cases p with
    | literal c => exact absurd trivial hcan
    | directive a k =>
      by_cases hi : a.selected earlier < arguments.length
      · have hv := List.getElem?_eq_getElem hi
        exact ⟨_, .noCapacity _ hv fun hfits => hcan ⟨_, hv, hfits⟩⟩
      · exact ⟨_, .noArgument (Nat.le_of_not_lt hi)⟩

theorem outputLength_directive {earlier : List Piece} {a : Attributes} {k : Conversion} {v : Value}
    (hv : arguments[a.selected earlier]? = some v) (hfits : a.Fits (k.coreText a nilToken v))
    (hprecision : a.precision = none) :
    outputLength nilToken arguments (earlier ++ [.directive a k]) =
      outputLength nilToken arguments earlier + (byteLength (k.coreText a nilToken v) +
        (a.width - (k.coreText a nilToken v).length)) := by
  have hrender := (k.outcome_render a nilToken v).trans (if_pos hfits)
  rw [outputLength_concat, Piece.output, hv, Option.elim_some, Run.text_of_ok hrender,
    Conversion.rendered_of_precision hprecision, Attributes.byteLength_padded]

/-- A directive whose width is the capacity leaves no room in front of it. -/
theorem Obstacle.of_width {earlier : List Piece} {a : Attributes} {k : Conversion} {v : Value}
    (hv : arguments[a.selected earlier]? = some v) (hprecision : a.precision = none)
    (hwidth : textCapacity ≤ a.width) (hne : output nilToken arguments [] earlier ≠ []) :
    Obstacle nilToken arguments earlier (.directive a k) .capacityOverflow := by
  by_cases hfits : a.Fits (k.coreText a nilToken v)
  · refine .noRoom ⟨v, hv, hfits⟩ ?_
    have hbytes := Text.length_le_byteLength (k.coreText a nilToken v)
    have hpos : 0 < outputLength nilToken arguments earlier :=
      Nat.lt_of_lt_of_le (List.length_pos_iff.mpr hne) (Text.length_le_byteLength _)
    rw [outputLength_directive hv hfits hprecision]
    omega
  · exact .noCapacity v hv hfits

/-! ## Pieces in a row -/

namespace Template

theorem fillAfter_of_filled {earlier ps : List Piece} (h : Filled nilToken arguments earlier ps) :
    (fillAfter nilToken arguments earlier ps).outcome =
      .ok (output nilToken arguments earlier ps) := by
  induction ps generalizing earlier with
  | nil => rfl
  | cons p ps ih =>
    obtain ⟨hp, hps⟩ := filled_cons_iff.mp h
    simp only [fillAfter_cons hp, Run.outcome_bind, Piece.fill_of_canFill hp.fillable.1, ih hps]
    rfl

/-- Filling fails as the first piece does that has something in its way, whatever follows it. -/
theorem fillAfter_of_obstacle {earlier before after : List Piece} {p : Piece} {e : FormatError}
    (hb : Filled nilToken arguments earlier before)
    (he : Obstacle nilToken arguments (earlier ++ before) p e) :
    (fillAfter nilToken arguments earlier (before ++ p :: after)).outcome = .error e := by
  induction before generalizing earlier with
  | nil =>
    rw [List.append_nil] at he
    rw [List.nil_append, fillAfter_cons_of_obstacle he]
  | cons q before ih =>
    obtain ⟨hq, hb⟩ := filled_cons_iff.mp hb
    have hrest := ih hb (by rwa [← List.append_cons])
    simp only [List.cons_append, fillAfter_cons hq, Run.outcome_bind,
      Piece.fill_of_canFill hq.fillable.1, hrest]
    rfl

/-- Where pieces are not filled, there is a first one with something in its way, unless there was
no room to begin with. -/
theorem exists_first_obstacle {earlier ps : List Piece}
    (hroom : Filled nilToken arguments earlier []) (h : ¬ Filled nilToken arguments earlier ps) :
    ∃ (before : List Piece) (p : Piece) (after : List Piece) (e : FormatError),
      ps = before ++ p :: after ∧ Filled nilToken arguments earlier before ∧
        Obstacle nilToken arguments (earlier ++ before) p e := by
  induction ps generalizing earlier with
  | nil => exact absurd hroom h
  | cons p ps ih =>
    by_cases hp : Filled nilToken arguments earlier [p]
    · obtain ⟨before, q, after, e, rfl, hb, he⟩ :=
        ih hp.nil fun hps => h (filled_cons_iff.mpr ⟨hp, hps⟩)
      refine ⟨p :: before, q, after, e, rfl, filled_cons_iff.mpr ⟨hp, hb⟩, ?_⟩
      rwa [← List.append_cons] at he
    · obtain ⟨e, he⟩ := exists_obstacle hp
      exact ⟨[], p, ps, e, rfl, hroom, by rwa [List.append_nil]⟩

/-- **Pieces are filled exactly if nothing is in the way**, and with their text. -/
theorem fillAfter_eq_ok_iff {earlier ps : List Piece} {text : List Char}
    (hroom : Filled nilToken arguments earlier []) :
    (fillAfter nilToken arguments earlier ps).outcome = .ok text ↔
      Filled nilToken arguments earlier ps ∧ text = output nilToken arguments earlier ps := by
  constructor
  · intro h
    by_cases hfill : Filled nilToken arguments earlier ps
    · rw [fillAfter_of_filled hfill] at h
      exact ⟨hfill, (Except.ok.inj h).symm⟩
    · obtain ⟨before, p, after, e, rfl, hb, he⟩ := exists_first_obstacle hroom hfill
      rw [fillAfter_of_obstacle hb he] at h
      cases h
  · rintro ⟨hfill, rfl⟩
    exact fillAfter_of_filled hfill

/-- **Filling fails exactly at the first piece with something in its way.** -/
theorem fillAfter_eq_error_iff {earlier ps : List Piece} {e : FormatError}
    (hroom : Filled nilToken arguments earlier []) :
    (fillAfter nilToken arguments earlier ps).outcome = .error e ↔
      ∃ (before : List Piece) (p : Piece) (after : List Piece),
        ps = before ++ p :: after ∧ Filled nilToken arguments earlier before ∧
          Obstacle nilToken arguments (earlier ++ before) p e := by
  constructor
  · intro h
    have hfill : ¬ Filled nilToken arguments earlier ps := by
      intro hfill
      rw [fillAfter_of_filled hfill] at h
      cases h
    obtain ⟨before, p, after, e', rfl, hb, he⟩ := exists_first_obstacle hroom hfill
    rw [fillAfter_of_obstacle hb he] at h
    cases h
    exact ⟨before, p, after, rfl, hb, he⟩
  · rintro ⟨before, p, after, rfl, hb, he⟩
    exact fillAfter_of_obstacle hb he

theorem outcome_fill (turn length : Nat) (t : Template) :
    (t.fill nilToken arguments turn length).outcome = (do
      let text ← (fillPieces nilToken arguments turn length t.pieces).outcome
      t.error?.elim (.ok text) fun e => .error (.malformed e)) := by
  rw [fill, Run.outcome_bind]
  congr 1
  funext text
  cases t.error? <;> rfl

/-- A template is filled exactly if it has no fault and nothing is in the way of its pieces. -/
theorem fill_eq_ok_iff {t : Template} {text : List Char} :
    (t.fill nilToken arguments 0 0).outcome = .ok text ↔
      t.error? = none ∧ Filled nilToken arguments [] t.pieces ∧
        text = output nilToken arguments [] t.pieces := by
  rw [← fillAfter_eq_ok_iff filled_nil, outcome_fill, fillAfter_nil]
  rcases (fillPieces nilToken arguments 0 0 t.pieces).outcome with e | text'
  · simp [bind, Except.bind]
  · cases t.error? <;> simp [bind, Except.bind]

/-- Filling a template fails at the first piece with something in its way, and if there is none,
with the fault of the template. -/
theorem fill_eq_error_iff {t : Template} {e : FormatError} :
    (t.fill nilToken arguments 0 0).outcome = .error e ↔
      (∃ (before : List Piece) (p : Piece) (after : List Piece), t.pieces = before ++ p :: after ∧
        Filled nilToken arguments [] before ∧ Obstacle nilToken arguments before p e) ∨
      Filled nilToken arguments [] t.pieces ∧
        ∃ fault, t.error? = some fault ∧ e = .malformed fault := by
  have hpieces := @fillAfter_eq_error_iff nilToken arguments [] t.pieces e filled_nil
  simp only [List.nil_append] at hpieces
  rw [← hpieces, outcome_fill, ← fillAfter_nil]
  -- The fault of the template counts only where its pieces are filled.
  by_cases hfill : Filled nilToken arguments [] t.pieces
  · rw [fillAfter_of_filled hfill]
    cases t.error? <;> simp [bind, Except.bind, hfill, eq_comm]
  · obtain ⟨before, p, after, e', hps, hb, he⟩ := exists_first_obstacle filled_nil hfill
    have hout : (fillAfter nilToken arguments [] t.pieces).outcome = .error e' := by
      rw [hps]
      exact fillAfter_of_obstacle hb he
    rw [hout]
    simp [bind, Except.bind, hfill]

end Template

namespace Formatter

variable (f : Formatter) (template : String) (arguments : List Value)

/-- Formatting is reading a template and filling it from the first argument on. -/
theorem format_eq :
    f.format template arguments =
      String.ofList <$> ((Template.parse template.toList).fill f.nilToken arguments 0 0).outcome := by
  rw [format, run, Run.outcome_bind, Run.outcome_report]
  show (Template.fill _ _ _ _ _ >>= fun text => pure (String.ofList text)).outcome = _
  rw [← map_eq_pure_bind, Run.outcome_map]

variable {f template arguments}

theorem format_eq_ok {o : String} :
    f.format template arguments = .ok o ↔
      ((Template.parse template.toList).fill f.nilToken arguments 0 0).outcome = .ok o.toList := by
  rw [format_eq]
  cases ((Template.parse template.toList).fill f.nilToken arguments 0 0).outcome with
  | error e => simp [Functor.map, Except.map]
  | ok text => simp [Functor.map, Except.map, ← String.toList_inj]

theorem format_eq_error {e : FormatError} :
    f.format template arguments = .error e ↔
      ((Template.parse template.toList).fill f.nilToken arguments 0 0).outcome = .error e := by
  rw [format_eq]
  cases ((Template.parse template.toList).fill f.nilToken arguments 0 0).outcome <;>
    simp [Functor.map, Except.map]

/-- A directive whose width is the capacity has no room behind a character, so formatting fails there,
whatever stands behind. -/
theorem format_overflow_of_width {c : Char} {after : List Piece} {a : Attributes} {k : Conversion}
    {v : Value} {others : List Value}
    (hps : (Template.parse template.toList).pieces = .literal c :: .directive a k :: after)
    (hindex : a.index = none) (hprecision : a.precision = none) (hwidth : textCapacity ≤ a.width) :
    f.format template (v :: others) = .error .capacityOverflow := by
  have hfirst : Filled f.nilToken (v :: others) [] [.literal c] :=
    ⟨⟨trivial, trivial⟩, Nat.le_trans c.utf8Size_le_four (by decide)⟩
  have hv : (v :: others)[a.selected [.literal c]]? = some v := by
    rw [Attributes.selected, hindex]
    rfl
  rw [format_eq_error, Template.fill_eq_error_iff]
  exact Or.inl ⟨[.literal c], _, after, hps, hfirst,
    .of_width hv hprecision hwidth (List.cons_ne_nil _ _)⟩

end Formatter

end PercentFormat
