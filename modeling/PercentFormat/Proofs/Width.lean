import PercentFormat.Proofs.Offsets
import PercentFormat.Proofs.Rendering

/-!
# The width of a rendered text

The width of a directive is a least width, and the precision of a text is a greatest one.  Both count
characters, whatever these take in bytes.  Padding comes first: it is all on one side, and only then
is a text cut, so a text that is padded on the left may lose all of itself and keep nothing but
padding.

## Main definitions

* `Conversion.Shape`: what padding and cutting make of the text of an argument

## Main results

* `length_padded`: padding brings a text to the width and not beyond
* `shape_rendered`: every rendered text has the shape
* `render_precision_decimal`: an integer has no precision
* `render_shape`: what is rendered without overflow, and how long it is
-/

namespace PercentFormat

open Text (byteLength)

namespace Attributes

variable (a : Attributes) (core : List Char)

/-- **Padding brings a text to the width**, and leaves a longer one as long as it is. -/
theorem length_padded : (a.padded core).length = max a.width core.length := by
  have hmissing : core.length + (a.width - core.length) = max a.width core.length := by omega
  unfold padded
  split
  · rw [List.length_append, List.length_replicate, hmissing]
  · rw [List.length_append, List.length_replicate, Nat.add_comm, hmissing]

theorem fill_eq_zero_iff : a.fill = '0' ↔ a.flags.zero = true ∧ a.flags.leftJustify = false := by
  rw [fill]
  cases a.flags.zero <;> cases a.flags.leftJustify <;> decide

theorem fill_eq_space_iff : a.fill = ' ' ↔ ¬ (a.flags.zero = true ∧ a.flags.leftJustify = false) := by
  rw [fill]
  cases a.flags.zero <;> cases a.flags.leftJustify <;> decide

end Attributes

namespace Conversion

/-- The text of an argument is `core`, with padding it is `padded`, and `out` is left of that. -/
structure Shape (k : Conversion) (a : Attributes) (core padded out : List Char) : Prop where
  /-- The width is a least width. -/
  length_padded : padded.length = max a.width core.length
  /-- Left-justified, only spaces follow. -/
  leftJustify : a.flags.leftJustify = true → ∃ n, padded = core ++ List.replicate n ' '
  /-- Otherwise only fill characters stand in front. -/
  fill : a.flags.leftJustify = false → ∃ n, padded = List.replicate n a.fill ++ core
  /-- Nothing is cut off a number. -/
  number : k = .decimal ∨ k = .float → out = padded
  /-- Nor is it off a text without a precision. -/
  text : k = .string ∨ k = .object → a.precision = none → out = padded
  /-- With one, as many characters of a text are left, or all if there are fewer. -/
  cut : k = .string ∨ k = .object → ∀ p, a.precision = some p →
    out = padded.take p ∧ out.length = min (max a.width core.length) p
  /-- The cut is between two characters. -/
  boundary : Text.sliceFrom? padded (byteLength out) = some (padded.drop out.length)

/-- **Every rendered text has the shape**: it is the text of its argument, padded and then cut. -/
theorem shape_rendered (k : Conversion) (a : Attributes) (core : List Char) :
    k.Shape a core (a.padded core) (k.cut a (a.padded core)) where
  length_padded := a.length_padded core
  leftJustify h := ⟨a.width - core.length, by rw [Attributes.padded, if_pos h]⟩
  fill h := ⟨a.width - core.length, by rw [Attributes.padded, if_neg (by simp [h])]⟩
  number h := by rcases h with rfl | rfl <;> rfl
  text h hp := by rcases h with rfl | rfl <;> rw [Conversion.cut, hp]
  cut h p hp := by
    have hcut : k.cut a (a.padded core) = (a.padded core).take p := by
      rcases h with rfl | rfl <;> rw [Conversion.cut, hp]
    refine ⟨hcut, ?_⟩
    rw [hcut, List.length_take, a.length_padded, Nat.min_comm]
  boundary := by
    obtain ⟨dropped, hpadded, hslice⟩ := k.exists_sliceFrom?_cut a (a.padded core)
    have hdrop : (k.cut a (a.padded core) ++ dropped).drop (k.cut a (a.padded core)).length =
        dropped := List.drop_left
    rw [← hpadded] at hdrop
    rw [hslice, hdrop]

/-- **An integer has no precision**: whichever is written, the text and the report are the same. -/
theorem render_precision_decimal (a : Attributes) (p : Option Nat) (nilToken : String) (v : Value) :
    decimal.render { a with precision := p } nilToken v = decimal.render a nilToken v :=
  rfl

/-- **Width, justification and precision.**  Rendering that does not overflow succeeds.  What comes of
it is the text of the argument, padded to the width on the side that the flags say, and with the
character that they say; a number is left so, and a text is cut to its precision.  So the length of a
number, and of a text without a precision, is the width or the length of the unpadded text, whichever
is greater; and that of a text with a precision is that or the precision, whichever is less.  An
integer has no precision. -/
theorem render_shape (k : Conversion) (a : Attributes) (nilToken : String) (v : Value)
    (h : (k.render a nilToken v).outcome ≠ .error .capacityOverflow) :
    (∃ core padded out, (k.core a nilToken v).outcome = .ok core ∧
      (k.render a nilToken v).outcome = .ok out ∧ k.Shape a core padded out ∧
        (k = .decimal ∨ k = .float → out.length = max a.width core.length) ∧
        (k = .string ∨ k = .object → out.length =
          a.precision.elim (max a.width core.length) (min (max a.width core.length)))) ∧
      (a.fill = '0' ↔ a.flags.zero = true ∧ a.flags.leftJustify = false) ∧
      (a.fill = ' ' ↔ ¬ (a.flags.zero = true ∧ a.flags.leftJustify = false)) ∧
      ∀ p, decimal.render { a with precision := p } nilToken v = decimal.render a nilToken v := by
  have hout := outcome_render_of_ne h
  have hshape := k.shape_rendered a (k.coreText a nilToken v)
  refine ⟨⟨_, _, _, outcome_core a nilToken v k, hout, hshape, ?_, ?_⟩, a.fill_eq_zero_iff,
    a.fill_eq_space_iff, fun p => render_precision_decimal a p nilToken v⟩
  · intro hk
    rw [rendered, hshape.number hk, hshape.length_padded]
  · intro hk
    cases hp : a.precision with
    | none => rw [rendered, hshape.text hk hp, hshape.length_padded, Option.elim_none]
    | some p => rw [rendered, (hshape.cut hk p hp).2, Option.elim_some]

/-- Three characters of eight bytes in all, padded on the right to six characters and cut to five. -/
theorem render_shape_multibyte :
    (string.render ⟨none, { leftJustify := true, zero := true }, 6, some 5⟩ "(nil)"
        (.text "日本é")).outcome ≠ .error .capacityOverflow ∧
      ∃ core padded out,
        string.Shape ⟨none, { leftJustify := true, zero := true }, 6, some 5⟩ core padded out ∧
          (string.render ⟨none, { leftJustify := true, zero := true }, 6, some 5⟩ "(nil)"
            (.text "日本é")).outcome = .ok out ∧ out.length = 5 := by
  have hfits : (string.render ⟨none, { leftJustify := true, zero := true }, 6, some 5⟩ "(nil)"
      (.text "日本é")).outcome ≠ .error .capacityOverflow := by
    rw [outcome_render, if_pos (by decide)]
    exact nofun
  obtain ⟨⟨core, padded, out, hcore, hout, hshape, -, hlength⟩, -⟩ := render_shape _ _ _ _ hfits
  obtain rfl : "日本é".toList = core := Except.ok.inj hcore
  exact ⟨hfits, _, padded, out, hshape, hout, hlength (Or.inl rfl)⟩

end Conversion

end PercentFormat
