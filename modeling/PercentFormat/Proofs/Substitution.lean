import Mathlib.Data.List.Basic
import PercentFormat.Proofs.Filling

/-!
# One argument in the place of another

What a call does with an argument is what the directives that ask for it do with it, so an argument
can be replaced wherever those directives cannot tell the difference.  Both the outcome and the log
are compared here: a replacement that made a conversion report something would be a difference.

Which arguments are asked for is found out on the way.  An index may name any argument, any number
of times; the other directives take theirs in turn; and once a directive has failed, or the output
has no room for a text, nothing that stands behind is looked at.  What is asked for in this way is a
list that can be computed.

## Main definitions

* `Formatter.requests`: what a call asks for, up to where it fails
* `Template.Selects`: some directive with a given conversion asks for a given argument

## Main results

* `fillAfter_eq_of_fill_eq`: pieces are filled alike if each that is reached is
* `mem_requests_iff`: what is asked for is asked for by a directive that is reached
* `run_congr`: calls are alike if they find the same where they ask
* `run_replace`: one argument replaced by another that no directive tells from it
-/

namespace PercentFormat

variable {nilToken nilToken' : String} {arguments arguments' : List Value}

/-! ## Filling with other arguments -/

namespace Piece

/-- Only the argument a directive asks for counts, and the number of arguments where it is
missing. -/
theorem fill_congr (hlength : arguments.length = arguments'.length) {turn : Nat} {p : Piece}
    (h : ∀ a k, p = .directive a k → ∀ v v', arguments[a.index.getD turn]? = some v →
      arguments'[a.index.getD turn]? = some v' →
        k.render a nilToken v = k.render a nilToken' v') :
    p.fill nilToken arguments turn = p.fill nilToken' arguments' turn := by
  cases p with
  | literal c => rfl
  | directive a k =>
    rw [fill, fill, selectArgument, selectArgument]
    by_cases hi : a.index.getD turn < arguments.length
    · have hv := List.getElem?_eq_getElem hi
      have hv' := List.getElem?_eq_getElem (hlength ▸ hi)
      rw [hv, hv', pure_bind, pure_bind]
      exact h a k rfl _ _ hv hv'
    · have hle := Nat.le_of_not_lt hi
      rw [List.getElem?_eq_none hle, List.getElem?_eq_none (hlength ▸ hle), hlength]
      rfl

end Piece

namespace Template

/-- Pieces are filled alike if every piece that is reached, which is one with nothing in the way
before it, is filled alike where it stands. -/
theorem fillAfter_eq_of_fill_eq {earlier ps : List Piece}
    (hroom : Filled nilToken arguments earlier [])
    (h : ∀ before p after, ps = before ++ p :: after →
      Filled nilToken arguments earlier before →
        p.fill nilToken arguments ((earlier ++ before).countP Piece.takesTurn) =
          p.fill nilToken' arguments' ((earlier ++ before).countP Piece.takesTurn)) :
    fillAfter nilToken arguments earlier ps =
      fillPieces nilToken' arguments' (earlier.countP Piece.takesTurn)
        (outputLength nilToken arguments earlier) ps := by
  -- By induction on the pieces; those that have been filled move over to `earlier`.
  induction ps generalizing earlier with
  | nil => rfl
  | cons p ps ih =>
    have hp := h [] p ps rfl hroom
    rw [List.append_nil] at hp
    rw [fillAfter, fillPieces, fillPieces, ← hp]
    refine Run.bind_congr fun text htext => Run.bind_congr fun n hn => ?_
    have hcan := Piece.canFill_of_fill htext
    obtain rfl : p.output nilToken arguments earlier = text :=
      Except.ok.inj ((Piece.fill_of_canFill hcan).symm.trans htext)
    obtain ⟨rfl, hle⟩ := reserve_eq_ok hn
    rw [← outputLength_concat] at hle ⊢
    have hfirst : Filled nilToken arguments earlier [p] := ⟨⟨hcan, trivial⟩, hle⟩
    have hrest := @ih (earlier ++ [p]) hfirst.nil ?_
    · rw [fillAfter, ← Piece.turnAfter_countP] at hrest
      rw [hrest]
    · rintro before q after rfl hb
      have hlater := h (p :: before) q after rfl (filled_cons_iff.mpr ⟨hfirst, hb⟩)
      rwa [List.append_cons] at hlater

theorem fill_congr (hlength : arguments.length = arguments'.length) {t : Template}
    (h : ∀ before a k after, t.pieces = before ++ .directive a k :: after →
      Filled nilToken arguments [] before →
        ∀ v v', arguments[a.selected before]? = some v →
          arguments'[a.selected before]? = some v' →
            k.render a nilToken v = k.render a nilToken' v') :
    t.fill nilToken arguments 0 0 = t.fill nilToken' arguments' 0 0 := by
  have hpieces : fillPieces nilToken arguments 0 0 t.pieces =
      fillPieces nilToken' arguments' 0 0 t.pieces := by
    apply fillAfter_eq_of_fill_eq filled_nil
    intro before p after hps hb
    apply Piece.fill_congr hlength
    rintro a k rfl
    exact h before a k after hps hb
  rw [fill, fill, hpieces]

end Template

/-! ## What is asked for -/

section

variable (nilToken : String) (arguments : List Value)

instance (earlier : List Piece) : (p : Piece) → Decidable (p.CanFill nilToken arguments earlier)
  | .literal _ => .isTrue trivial
  | .directive a k => inferInstanceAs (Decidable
      (∃ v ∈ arguments[a.selected earlier]?, a.Fits (k.coreText a nilToken v)))

instance (earlier : List Piece) (p : Piece) : Decidable (Filled nilToken arguments earlier [p]) :=
  decidable_of_iff (p.CanFill nilToken arguments earlier ∧
    outputLength nilToken arguments (earlier ++ [p]) ≤ textCapacity)
    ⟨fun h => ⟨⟨h.1, trivial⟩, h.2⟩, fun h => ⟨h.fillable.1, h.room⟩⟩

/-- The argument that a piece asks for behind `earlier`, and under which conversion. -/
def Piece.request? (earlier : List Piece) : Piece → Option (Conversion × Nat)
  | literal _ => none
  | directive a k => some (k, a.selected earlier)

/-- What the pieces that follow `earlier` ask for, in order, up to and with the first that is not
filled. -/
def Template.requests : List Piece → List Piece → List (Conversion × Nat)
  | _, [] => []
  | earlier, p :: ps =>
    (p.request? earlier).toList ++
      if Filled nilToken arguments earlier [p] then requests (earlier ++ [p]) ps else []

end

namespace Template

/-- **What is asked for is asked for by a directive that is reached.** -/
theorem mem_requests_iff {earlier ps : List Piece} {k : Conversion} {i : Nat}
    (hroom : Filled nilToken arguments earlier []) :
    (k, i) ∈ requests nilToken arguments earlier ps ↔
      ∃ before a after, ps = before ++ .directive a k :: after ∧
        Filled nilToken arguments earlier before ∧ a.selected (earlier ++ before) = i := by
  induction ps generalizing earlier with
  | nil => simp [requests]
  | cons p ps ih =>
    rw [requests, List.mem_append]
    constructor
    · rintro (h | h)
      · cases p with
        | literal c => cases h
        | directive a k' =>
          cases List.mem_singleton.mp h
          exact ⟨[], a, ps, rfl, hroom, by rw [List.append_nil]⟩
      · by_cases hp : Filled nilToken arguments earlier [p]
        · rw [if_pos hp, ih hp.nil] at h
          obtain ⟨before, a, after, rfl, hb, hi⟩ := h
          refine ⟨p :: before, a, after, rfl, filled_cons_iff.mpr ⟨hp, hb⟩, ?_⟩
          rwa [List.append_cons]
        · rw [if_neg hp] at h
          cases h
    · rintro ⟨_ | ⟨q, before⟩, a, after, hps, hb, hi⟩
      · cases hps
        rw [List.append_nil] at hi
        exact Or.inl (by simp [Piece.request?, hi])
      · cases hps
        obtain ⟨hq, hb⟩ := filled_cons_iff.mp hb
        rw [List.append_cons] at hi
        rw [if_pos hq, ih hq.nil]
        exact Or.inr ⟨before, a, after, rfl, hb, hi⟩

/-- A directive of the template with the conversion `k` asks for the argument `i`. -/
def Selects (t : Template) (k : Conversion) (i : Nat) : Prop :=
  ∃ earlier a later, t.pieces = earlier ++ .directive a k :: later ∧ a.selected earlier = i

theorem selects_of_mem_requests {t : Template} {k : Conversion} {i : Nat}
    (h : (k, i) ∈ requests nilToken arguments [] t.pieces) : t.Selects k i := by
  obtain ⟨before, a, after, hps, -, hi⟩ := (mem_requests_iff filled_nil).mp h
  exact ⟨before, a, after, hps, hi⟩

end Template

namespace Formatter

/-- What a call asks for, in order, up to where it fails. -/
def requests (f : Formatter) (template : String) (arguments : List Value) :
    List (Conversion × Nat) :=
  Template.requests f.nilToken arguments [] (Template.parse template.toList).pieces

/-- **Calls are alike if they find the same where they ask**, which is to say, the same text with
the same report. -/
theorem run_congr {f f' : Formatter} {template : String} {arguments arguments' : List Value}
    (hlength : arguments.length = arguments'.length)
    (h : ∀ k i, (k, i) ∈ f.requests template arguments →
      ∀ v v', arguments[i]? = some v → arguments'[i]? = some v' →
        ∀ a, k.core a f.nilToken v = k.core a f'.nilToken v') :
    f.run template arguments = f'.run template arguments' := by
  have hfill : (Template.parse template.toList).fill f.nilToken arguments 0 0 =
      (Template.parse template.toList).fill f'.nilToken arguments' 0 0 := by
    apply Template.fill_congr hlength
    intro before a k after hps hb v v' hv hv'
    have hmem : (k, a.selected before) ∈ f.requests template arguments :=
      (Template.mem_requests_iff filled_nil).mpr ⟨before, a, after, hps, hb, rfl⟩
    rw [Conversion.render, Conversion.render, h k _ hmem v v' hv hv']
  rw [run, run, hlength, hfill]

end Formatter

/-! ## Replacing one argument -/

theorem getElem?_append_cons_self {α : Type} (front back : List α) (v : α) :
    (front ++ v :: back)[front.length]? = some v := by
  simp

theorem getElem?_append_cons_of_ne {α : Type} (front back : List α) (v w : α) {i : Nat}
    (h : i ≠ front.length) : (front ++ v :: back)[i]? = (front ++ w :: back)[i]? := by
  simp only [List.getElem?_append, List.getElem?_cons]
  split
  · rfl
  · rw [if_neg (by omega), if_neg (by omega)]

namespace Formatter

variable (f : Formatter) (template : String) (front back : List Value) {v w : Value}

/-- **One argument in the place of another.**  If both have the same text, and report the same,
under every conversion that they are asked for under, a call does not change when one takes the
place of the other: neither its outcome nor its log. -/
theorem run_replace_of_requests
    (h : ∀ k, (k, front.length) ∈ f.requests template (front ++ v :: back) →
      ∀ a, k.core a f.nilToken v = k.core a f.nilToken w) :
    f.run template (front ++ v :: back) = f.run template (front ++ w :: back) := by
  have hlength : (front ++ v :: back).length = (front ++ w :: back).length := by
    simp only [List.length_append, List.length_cons]
  apply run_congr hlength
  intro k i hmem u u' hu hu' a
  by_cases hi : i = front.length
  · subst hi
    rw [getElem?_append_cons_self] at hu hu'
    obtain rfl : v = u := Option.some.inj hu
    obtain rfl : w = u' := Option.some.inj hu'
    exact h k hmem a
  · rw [getElem?_append_cons_of_ne front back v w hi, hu'] at hu
    cases hu
    rfl

/-- The same for the conversions of all directives that ask for the argument, whether they are
reached or not. -/
theorem run_replace
    (h : ∀ k, (Template.parse template.toList).Selects k front.length →
      ∀ a, k.core a f.nilToken v = k.core a f.nilToken w) :
    f.run template (front ++ v :: back) = f.run template (front ++ w :: back) := by
  apply run_replace_of_requests
  intro k hmem
  exact h k (Template.selects_of_mem_requests hmem)

end Formatter

end PercentFormat
