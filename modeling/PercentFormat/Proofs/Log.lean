import PercentFormat.Proofs.NumberGrammar
import PercentFormat.Proofs.Substitution

/-!
# The log of a call

A call reports that it starts, then what it could not read as a number, and at last how it fails.
Its log can be written down without following it: what it asks for is known, each argument that is
asked for as a number either begins with one or is complained of, and the failure is that of the
outcome.

## Why it is not bookkeeping

Complaints are made where an argument is read, before it is padded, so an argument that does not fit
is complained of like any other.  A missing argument is reported where it is looked up, and a faulty
directive where the pieces have been filled.  That nothing is reported twice, nothing behind a
failure, and the failure last of all, is a matter of where each of these ends.

## Main definitions

* `Conversion.complaint?`: what a conversion reports of an argument
* `closing`: what is reported of how a call ends
* `Formatter.reports`: what a call reports behind its start

## Main results

* `events_render`: rendering reports the complaint and nothing else
* `events_fillAfter`: filling reports complaints, and then how it ends
* `events_run`: the log of a call
-/

namespace PercentFormat

/-! ## The parts of a log -/

/-- What a conversion reports of an argument: that a text does not begin with a number, where one is
asked for. -/
def Conversion.complaint? : Conversion → Value → Option Event
  | decimal, .text s | decimal, .other s =>
    if Text.BeginsWithInteger s.toList then none else some (.notAnInteger s)
  | float, .text s | float, .other s =>
    if Text.BeginsWithFloat s.toList then none else some (.notANumber s)
  | _, _ => none

theorem Conversion.level_complaint? {k : Conversion} {v : Value} {e : Event}
    (h : k.complaint? v = some e) : e.level = .debug := by
  unfold complaint? at h
  split at h
  case h_5 => cases h
  all_goals
    split at h <;> cases h
    rfl

/-- What is reported of how a call ends: an unknown conversion and a missing argument, nothing
else. -/
def closing {α : Type} : Except FormatError α → List Event
  | .error (.malformed (.unknownConversion c position)) => [.unknownConversion c position]
  | .error (.argumentOutOfRange index count) => [.argumentOutOfRange index count]
  | _ => []

section

variable {α β : Type}

@[simp] theorem closing_ok (a : α) : closing (.ok a) = [] := rfl

theorem toList_ofError? (e : FormatError) :
    (Event.ofError? e).toList = closing (.error e : Except FormatError α) := by
  rcases e with (_ | _) | _ | _ <;> rfl

@[simp] theorem closing_map (g : α → β) (x : Except FormatError α) :
    closing (g <$> x) = closing x := by
  rcases x with ((_ | _) | _ | _) | _ <;> rfl

theorem level_of_mem_closing {x : Except FormatError α} {e : Event} (h : e ∈ closing x) :
    e.level = .debug := by
  unfold closing at h
  split at h
  · rw [List.mem_singleton.mp h]
    rfl
  · rw [List.mem_singleton.mp h]
    rfl
  · cases h

namespace Run

theorem events_bind_of_ok {x : Run α} {a : α} (h : x.outcome = .ok a) (g : α → Run β) :
    (x >>= g).events = x.events ++ (g a).events := by
  rw [bind_of_ok h]

theorem events_bind_of_error {x : Run α} {e : FormatError} (h : x.outcome = .error e)
    (g : α → Run β) : (x >>= g).events = x.events := by
  rw [bind_of_error h]

@[simp] theorem events_map (g : α → β) (x : Run α) : (g <$> x).events = x.events := by
  rw [map_eq_pure_bind]
  cases h : x.outcome with
  | ok a => rw [events_bind_of_ok h, events_pure, List.append_nil]
  | error e => rw [events_bind_of_error h]

theorem events_bind_pure (x : Run α) (g : α → β) :
    (x >>= fun a => pure (g a)).events = x.events := by
  rw [← map_eq_pure_bind, events_map]

end Run

end

/-! ## Rendering -/

namespace Value

theorem events_toInteger (v : Value) :
    v.toInteger.events = (Conversion.decimal.complaint? v).toList := by
  cases v with
  | text s | other s =>
    simp only [toInteger, Conversion.complaint?, ← Text.isSome_leadingInteger?_iff]
    cases Text.leadingInteger? s.toList <;> rfl
  | _ => rfl

theorem events_toFloat (v : Value) :
    v.toFloat.events = (Conversion.float.complaint? v).toList := by
  cases v with
  | text s | other s =>
    simp only [toFloat, Conversion.complaint?, ← Text.isSome_leadingFloat?_iff]
    cases Text.leadingFloat? s.toList <;> rfl
  | _ => rfl

end Value

/-- Padding reports nothing, not even that it fails. -/
theorem Attributes.events_pad (a : Attributes) (core : List Char) : (a.pad core).events = [] := by
  rcases Nat.lt_or_ge core.length a.width with hw | hw
  · rcases Nat.lt_or_ge textCapacity (Text.byteLength core + (a.width - core.length)) with hc | hc
    · rw [pad_overflow hw hc]
      rfl
    · cases hl : a.flags.leftJustify with
      | true => rw [pad_leftJustify hl hw hc]; rfl
      | false => rw [pad_fill hl hw hc]; rfl
  · rw [pad_of_le hw]
    rfl

namespace Conversion

variable (a : Attributes) (nilToken : String) (v : Value) (k : Conversion)

theorem events_core : (k.core a nilToken v).events = (k.complaint? v).toList := by
  cases k with
  | string | object => rfl
  | decimal => rw [core, Run.events_map, v.events_toInteger]
  | float => rw [core, Run.events_map, v.events_toFloat]

/-- **Rendering reports the complaint and nothing else**, whether the text fits or not. -/
theorem events_render : (k.render a nilToken v).events = (k.complaint? v).toList := by
  rw [render, Run.events_bind_of_ok (k.outcome_core a nilToken v), events_core]
  rw [Run.events_bind_pure, a.events_pad, List.append_nil]

end Conversion

/-! ## Filling -/

/-- What is reported of something that is asked for, if it is there. -/
def complaintAt? (arguments : List Value) : Conversion × Nat → Option Event
  | (k, i) => arguments[i]?.bind k.complaint?

/-- What is in the way of a piece is reported where the piece is filled, if it is reported. -/
theorem Obstacle.closing_fill {nilToken : String} {arguments : List Value} {earlier : List Piece}
    {p : Piece} {e : FormatError} (h : Obstacle nilToken arguments earlier p e) :
    closing (p.fill nilToken arguments (earlier.countP Piece.takesTurn)).outcome =
      closing (.error e : Except FormatError (List Char)) := by
  rcases h.outcome_fill with hfill | ⟨hcan, -, rfl⟩
  · rw [hfill]
  · rw [Piece.fill_of_canFill hcan]
    rfl

variable (nilToken : String) (arguments : List Value)

/-- Filling a piece reports the complaint about the argument it asks for, and then how it ends. -/
theorem Piece.events_fill (earlier : List Piece) (p : Piece) :
    (p.fill nilToken arguments (earlier.countP takesTurn)).events =
      (p.request? earlier).toList.filterMap (complaintAt? arguments) ++
        closing (p.fill nilToken arguments (earlier.countP takesTurn)).outcome := by
  cases p with
  | literal c => rfl
  | directive a k =>
    rw [outcome_fill_directive, fill, selectArgument, request?, Attributes.selected]
    cases hv : arguments[a.index.getD (earlier.countP takesTurn)]? with
    | none =>
      have hcomplaint : complaintAt? arguments
          (k, a.index.getD (earlier.countP takesTurn)) = none := by
        rw [complaintAt?, hv, Option.bind_none]
      simp only [Option.toList_some, List.filterMap_cons_none hcomplaint, List.filterMap_nil]
      rfl
    | some v =>
      have hcomplaint : complaintAt? arguments
          (k, a.index.getD (earlier.countP takesTurn)) = k.complaint? v := by
        rw [complaintAt?, hv, Option.bind_some]
      have hclosing : closing (k.render a nilToken v).outcome = [] := by
        rw [k.outcome_render]
        split <;> rfl
      dsimp only
      rw [pure_bind, k.events_render, hclosing, List.append_nil, Option.toList_some,
        List.filterMap_cons, hcomplaint]
      cases k.complaint? v <;> rfl

namespace Template

/-- **Filling reports complaints about what is asked for, in order, and then how it ends.** -/
theorem events_fillAfter (earlier ps : List Piece) :
    (fillAfter nilToken arguments earlier ps).events =
      (requests nilToken arguments earlier ps).filterMap (complaintAt? arguments) ++
        closing (fillAfter nilToken arguments earlier ps).outcome := by
  -- By induction on the pieces, with those that have been filled in `earlier`.
  induction ps generalizing earlier with
  | nil => rfl
  | cons p ps ih =>
    have hp := Piece.events_fill nilToken arguments earlier p
    rw [requests, List.filterMap_append]
    by_cases hfilled : Filled nilToken arguments earlier [p]
    · have hfill := Piece.fill_of_canFill hfilled.fillable.1
      rw [hfill, closing_ok, List.append_nil] at hp
      rw [if_pos hfilled, fillAfter_cons hfilled, Run.events_bind_of_ok hfill, Run.events_bind_pure,
        Run.bind_of_ok hfill, ← map_eq_pure_bind, Run.outcome_map, closing_map, hp, ih,
        List.append_assoc]
    · obtain ⟨e, he⟩ := exists_obstacle hfilled
      rw [if_neg hfilled, fillAfter_cons_of_obstacle he, hp, List.filterMap_nil, List.append_nil,
        he.closing_fill]

theorem events_fill (t : Template) :
    (t.fill nilToken arguments 0 0).events =
      (requests nilToken arguments [] t.pieces).filterMap (complaintAt? arguments) ++
        closing (t.fill nilToken arguments 0 0).outcome := by
  have hpieces := events_fillAfter nilToken arguments [] t.pieces
  rw [fillAfter_nil] at hpieces
  rw [fill]
  cases h : (fillPieces nilToken arguments 0 0 t.pieces).outcome with
  | error e =>
    rw [Run.events_bind_of_error h, Run.outcome_bind, hpieces, h]
    rfl
  | ok text =>
    rw [h, closing_ok, List.append_nil] at hpieces
    rw [Run.events_bind_of_ok h, Run.outcome_bind, hpieces, h]
    cases t.error? with
    | none => rfl
    | some e => exact congrArg _ (toList_ofError? (.malformed e))

end Template

namespace Formatter

/-- What a call reports behind its start: complaints about what it asks for, in order, and then how
it ends. -/
def reports (f : Formatter) (template : String) (arguments : List Value) : List Event :=
  (f.requests template arguments).filterMap (complaintAt? arguments) ++
    closing (f.format template arguments)

theorem level_of_mem_reports {f : Formatter} {template : String} {arguments : List Value}
    {e : Event} (h : e ∈ f.reports template arguments) : e.level = .debug := by
  rcases List.mem_append.mp h with h | h
  · obtain ⟨⟨k, i⟩, -, hcomplaint⟩ := List.mem_filterMap.mp h
    obtain ⟨v, -, hv⟩ := Option.bind_eq_some_iff.mp hcomplaint
    exact Conversion.level_complaint? hv
  · exact level_of_mem_closing h

/-- **The log of a call.**  First comes its start, with the length of the template in bytes and the
number of arguments.  Then comes one complaint for each directive that is reached with an argument
that is there, in order, if it asks for a number and the argument is a text that, behind its blanks,
does not begin with one; also if its padded text does not fit.  An unknown conversion or a missing
argument in the outcome is reported last, and no other outcome is.  The start is the only trace
event; all that follow are debug events. -/
theorem events_run (f : Formatter) (template : String) (arguments : List Value) :
    (f.run template arguments).events =
        .formatting template.utf8ByteSize arguments.length ::
          ((f.requests template arguments).filterMap (complaintAt? arguments) ++
            closing (f.format template arguments)) ∧
      (f.run template arguments).events.filter (fun e => e.level = .trace) =
        [.formatting template.utf8ByteSize arguments.length] := by
  have hevents : (f.run template arguments).events =
      .formatting template.utf8ByteSize arguments.length :: f.reports template arguments := by
    rw [reports, format_eq, closing_map, requests, ← Template.events_fill, run,
      Run.events_bind_of_ok (Run.outcome_report _)]
    rw [Run.events_bind_pure]
    rfl
  have hnone : (f.reports template arguments).filter (fun e => e.level = .trace) = [] := by
    rw [List.filter_eq_nil_iff]
    intro e he
    simp [level_of_mem_reports he]
  refine ⟨hevents, ?_⟩
  rw [hevents, List.filter_cons_of_pos (by rfl), hnone]

example :
    (({} : Formatter).run "%d %1$f %2$d %3$s %y" [.text "x", .other " +7 apples"]).events =
      [.formatting 20 2, .notAnInteger "x", .notANumber "x", .argumentOutOfRange 2 2] := by
  decide +kernel

end Formatter

end PercentFormat
