import Mathlib.Data.List.Forall2
import PercentFormat.Proofs.Log
import PercentFormat.Proofs.Rounding

/-!
# Kinds of arguments that are not told apart

A text and anything else that is shown as that text are the same argument: both are shown as they
are and read for the numbers they begin with, with the same complaints.  An absent argument has no
kind of its own either, only it is a different one to each conversion: the nil token where a text is
asked for, and the number zero where a number is.  It is not a text that is read as zero, for that
would be complained of.

## Main definitions

* `Value.SameText`: the same argument, or the same text in another kind

## Main results

* `SameText.core_eq`, `core_absent_eq_text`, `core_absent_eq_zero`: what conversions do not tell
  apart
* `run_kinds`: arguments of which one can take the place of another
-/

namespace PercentFormat

/-- The same argument, or a text and something that is shown as that text. -/
inductive Value.SameText : Value → Value → Prop
  | refl (v : Value) : SameText v v
  | text_other (s : String) : SameText (.text s) (.other s)
  | other_text (s : String) : SameText (.other s) (.text s)

/-- No conversion tells a text from something that is shown as that text. -/
theorem Value.SameText.core_eq {v w : Value} (h : v.SameText w) (k : Conversion) (a : Attributes)
    (nilToken : String) : k.core a nilToken v = k.core a nilToken w := by
  cases h with
  | refl v => rfl
  | text_other s => cases k <;> rfl
  | other_text s => cases k <;> rfl

namespace Conversion

variable {k : Conversion} (a : Attributes) (nilToken : String)

/-- As a text, an absent argument is the nil token. -/
theorem core_absent_eq_text (hk : k = .string ∨ k = .object) :
    k.core a nilToken .absent = k.core a nilToken (.text nilToken) := by
  rcases hk with rfl | rfl <;> rfl

/-- As a number, it is zero. -/
theorem core_absent_eq_zero (hk : k = .decimal ∨ k = .float) :
    k.core a nilToken .absent = k.core a nilToken (.int 0) := by
  rcases hk with rfl | rfl
  · rfl
  · rw [core, core, Value.toFloat, Value.toFloat, Int64.toInt_zero, Floating.ofInt_zero]

end Conversion

namespace Formatter

/-- **Kinds of arguments that can take each other's place.**

* Any of the arguments that are texts can be given as something else that is shown so, and the other
  way round.
* An absent argument can be given as the nil token if it is asked for as a text only.
* It can be given as the integer zero if it is asked for as a number only.

Neither the outcome nor the log of the call changes.  Nothing is ever reported of an absent
argument, whatever it is asked for as. -/
theorem run_kinds (f : Formatter) (template : String) :
    (∀ arguments arguments', List.Forall₂ Value.SameText arguments arguments' →
      f.run template arguments = f.run template arguments') ∧
    (∀ front back,
      (∀ k, (k, front.length) ∈ f.requests template (front ++ .absent :: back) →
        k = .string ∨ k = .object) →
      f.run template (front ++ .absent :: back) =
        f.run template (front ++ .text f.nilToken :: back)) ∧
    (∀ front back,
      (∀ k, (k, front.length) ∈ f.requests template (front ++ .absent :: back) →
        k = .decimal ∨ k = .float) →
      f.run template (front ++ .absent :: back) = f.run template (front ++ .int 0 :: back)) ∧
    ∀ (k : Conversion) (a : Attributes), (k.render a f.nilToken .absent).events = [] := by
  refine ⟨?_, ?_, ?_, ?_⟩
  · intro arguments arguments' hsame
    apply run_congr hsame.length_eq
    intro k i _ v v' hv hv' a
    obtain ⟨hi, rfl⟩ := List.getElem?_eq_some_iff.mp hv
    obtain ⟨hi', rfl⟩ := List.getElem?_eq_some_iff.mp hv'
    exact (hsame.get hi hi').core_eq k a f.nilToken
  · intro front back hk
    apply run_replace_of_requests
    intro k hmem a
    exact Conversion.core_absent_eq_text a f.nilToken (hk k hmem)
  · intro front back hk
    apply run_replace_of_requests
    intro k hmem a
    exact Conversion.core_absent_eq_zero a f.nilToken (hk k hmem)
  · intro k a
    rw [k.events_render]
    cases k <;> rfl

/-- A template that asks for its first argument as a text, and twice for its second as a number. -/
theorem run_kinds_text_and_number :
    ({} : Formatter).run "%s %+04d %2$f" [.text "a", .text "7x"] =
        ({} : Formatter).run "%s %+04d %2$f" [.text "a", .other "7x"] ∧
      (({} : Formatter).requests "%s %+04d %2$f" [.absent, .int 5] =
          [(.string, 0), (.decimal, 1), (.float, 1)] ∧
        ({} : Formatter).run "%s %+04d %2$f" [.absent, .int 5] =
          ({} : Formatter).run "%s %+04d %2$f" [.text "(nil)", .int 5]) ∧
      (({} : Formatter).requests "%s %+04d %2$f" [.text "a", .absent] =
          [(.string, 0), (.decimal, 1), (.float, 1)] ∧
        ({} : Formatter).run "%s %+04d %2$f" [.text "a", .absent] =
          ({} : Formatter).run "%s %+04d %2$f" [.text "a", .int 0]) := by
  have hfirst : ({} : Formatter).requests "%s %+04d %2$f" [.absent, .int 5] =
      [(.string, 0), (.decimal, 1), (.float, 1)] := by
    decide +kernel
  have hsecond : ({} : Formatter).requests "%s %+04d %2$f" [.text "a", .absent] =
      [(.string, 0), (.decimal, 1), (.float, 1)] := by
    decide +kernel
  obtain ⟨hsame, htext, hzero, -⟩ := run_kinds {} "%s %+04d %2$f"
  refine ⟨?_, ⟨hfirst, ?_⟩, ⟨hsecond, ?_⟩⟩
  · exact hsame _ _ (.cons (.refl _) (.cons (.text_other "7x") .nil))
  · apply htext [] [.int 5]
    intro k hmem
    rw [List.nil_append, hfirst] at hmem
    exact Or.inl (by simpa using hmem)
  · apply hzero [.text "a"] []
    intro k hmem
    rw [List.singleton_append, hsecond] at hmem
    simpa using hmem

end Formatter

end PercentFormat
