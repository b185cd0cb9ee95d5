import PercentFormat.Proofs.Derivation
import PercentFormat.Proofs.Filling

/-!
# The meaning of a template

A template is formatted exactly if the grammar derives it, nothing is in the way of filling what
is derived, and the output has room for all of it.  The result is then read off the derivation,
piece by piece.

## Main results

* `format_ok_iff_derived`: which templates are formatted, and with what result
* `format_directive`: a directive alone is its argument rendered
-/

namespace PercentFormat

namespace Formatter

/-- **Accepted templates and their meaning.**  A template is formatted to `o` exactly if the
grammar derives it, every directive asks for an argument that is there, no padded text exceeds
the capacity, `o` is, in order, every literal character, one `%` for each `%%`, and for each
directive the argument it asks for rendered under its attributes, and `o` does not exceed the
capacity either.  By `derivation_injective` there is no choice of the derivation. -/
theorem format_ok_iff_derived (f : Formatter) (template : String) (arguments : List Value)
    (o : String) :
    f.format template arguments = .ok o ↔
      ∃ written : List Written, template.toList = written.flatMap Written.text ∧
        Fillable f.nilToken arguments [] (written.map Written.piece) ∧
          o.toList = output f.nilToken arguments [] (written.map Written.piece) ∧
            o.utf8ByteSize ≤ textCapacity := by
  rw [format_eq_ok, Template.fill_eq_ok_iff, ← Text.byteLength_toList]
  constructor
  · rintro ⟨hfault, ⟨hfill, hroom⟩, ho⟩
    obtain ⟨written, ⟨ht, hr⟩ | ⟨t, e, -, -, -, hr⟩⟩ := Template.parse_cases template.toList
    · rw [hr] at hfill hroom ho
      exact ⟨written, ht, hfill, ho, by rwa [ho]⟩
    · rw [hr] at hfault
      cases hfault
  · rintro ⟨written, ht, hfill, ho, hsize⟩
    rw [ho] at hsize
    rw [ht, Template.parse_text]
    exact ⟨rfl, ⟨hfill, hsize⟩, ho⟩

/-- Without the bound on `o` that is not enough: here every piece has a text, and the `x` with the
padding behind it would have one byte more than a text can have. -/
theorem format_overflow_of_derived :
    (∃ written : List Written, "x%9223372036854775807s".toList = written.flatMap Written.text ∧
      Fillable defaultNilToken [.text ""] [] (written.map Written.piece)) ∧
    ({} : Formatter).format "x%9223372036854775807s" [.text ""] = .error .capacityOverflow := by
  have hparse : Template.parse "x%9223372036854775807s".toList =
      ⟨[.literal 'x', .directive { width := textCapacity } .string], none⟩ := by
    decide +kernel
  refine ⟨?_, ?_⟩
  · obtain ⟨written, ⟨ht, hr⟩ | ⟨t, e, -, -, -, hr⟩⟩ :=
      Template.parse_cases "x%9223372036854775807s".toList
    · rw [hparse, Template.mk.injEq] at hr
      refine ⟨written, ht, ?_⟩
      rw [← hr.1]
      exact ⟨trivial, ⟨.text "", rfl, by decide⟩, trivial⟩
    · rw [hparse] at hr
      cases (Template.mk.inj hr).2
  · exact format_overflow_of_width (by rw [hparse]) rfl rfl (Nat.le_refl _)

/-- A template that is a directive alone is its argument rendered, if it asks for the only one and
the output has room for it. -/
theorem format_directive (f : Formatter) {s : Spelling} (h : s.attributes.index.getD 0 = 0)
    {k : Conversion} {v : Value} {shown : List Char}
    (hshown : (k.render s.attributes f.nilToken v).outcome = .ok shown)
    (hroom : Text.byteLength shown ≤ textCapacity) :
    f.format (String.ofList ('%' :: (s.text ++ [k.char]))) [v] = .ok (String.ofList shown) := by
  have hparse : Template.parse ('%' :: (s.text ++ [k.char])) =
      ⟨[.directive s.attributes k], none⟩ := by
    have hwritten := Template.parse_text [.directive s k]
    rwa [List.flatMap_singleton] at hwritten
  have hfill : ((Piece.directive s.attributes k).fill f.nilToken [v] 0).outcome = .ok shown := by
    rw [outcome_fill_directive, h]
    exact hshown
  rw [← Nat.zero_add (Text.byteLength shown)] at hroom
  rw [format_eq, String.toList_ofList, hparse, Template.outcome_fill, Template.fillPieces,
    Run.bind_of_ok hfill, Template.reserve_of_le hroom, pure_bind, Template.fillPieces, pure_bind,
    List.append_nil]
  rfl

end Formatter

end PercentFormat
