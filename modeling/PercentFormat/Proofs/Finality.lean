import PercentFormat.Proofs.FirstFault

/-!
# Failures are final

A failure is found out on the way through a template, and what stands behind that place has not been
looked at.  So the failure stays the same, with its position, however the template goes on.  There
is one exception, which is no failure of what was read but of what was not: a template that ends
inside a directive.  Its attributes may go on, and any conversion completes them.

## Why it is not bookkeeping

Attributes are read with an eye on the next character, and more text gives them one where they had
none.  A number that ended the template may grow, or turn out to be an index.  That is why the
pieces of a template are only a beginning of the pieces of a longer one, and why its fault remains
only where a character was found that does not go on with the attributes.

## Main results

* `pieces_parse_append`: what has been read of a template stays read when it goes on
* `parse_append_of_unknownConversion`: nothing behind an unknown conversion is read
* `parse_append_conversion`: any conversion completes a directive that is cut off
* `format_error_final`: which failures remain when a template goes on
-/

namespace PercentFormat

open Text (byteLength)

/-- Whether a spelling is the longest is settled by the character behind it. -/
theorem Spelling.LongestIn.append {s : Spelling} {c : Char} {t : List Char}
    (h : s.LongestIn (s.text ++ c :: t)) (more : List Char) :
    s.LongestIn (s.text ++ c :: t ++ more) := by
  rw [List.append_assoc, longestIn_append_iff]
  rw [longestIn_append_iff] at h
  intro d hd
  exact h d hd

theorem Faulty.append {k position : Nat} {rest : List Char} {c : Char}
    (h : Faulty k rest (.unknownConversion c position)) (more : List Char) :
    Faulty k (rest ++ more) (.unknownConversion c position) := by
  cases h with
  | unknownConversion s c t hs ht hc =>
    subst ht
    exact .unknownConversion s c (t ++ more) (hs.append more) (by simp) hc

namespace Template

variable {text : List Char}

/-! ## Templates that go on -/

/-- **What has been read of a template stays read when it goes on.** -/
theorem pieces_parse_append (text more : List Char) :
    (parse text).pieces <+: (parse (text ++ more)).pieces := by
  obtain ⟨written, tail, ht, hp⟩ := exists_written text
  have hread := read_append written 0 (tail ++ more)
  rw [← List.append_assoc, ← ht] at hread
  rw [hp, parse, Cursor.start, hread]
  exact List.prefix_append _ _

/-- **Nothing behind an unknown conversion is read.** -/
theorem parse_append_of_unknownConversion {c : Char} {position : Nat}
    (h : (parse text).error? = some (.unknownConversion c position)) (more : List Char) :
    parse (text ++ more) = parse text := by
  obtain ⟨written, ⟨-, hr⟩ | ⟨t, e, ht, hp, he, hr⟩⟩ := parse_cases text
  · rw [hr] at h
    cases h
  · obtain rfl : e = .unknownConversion c position := by
      rw [hr] at h
      exact Option.some.inj h
    have hhead : (t ++ more).head? ≠ some '%' := by
      cases he with
      | unknownConversion s c u hs hu hc =>
        rw [List.head?_append_of_ne_nil _ (by simp [hu])]
        exact hp
    have hread := read_append written 0 ('%' :: (t ++ more))
    have hf := he.append more
    rw [← Nat.zero_add (byteLength _)] at hf
    rw [read_faulty hhead hf] at hread
    rw [hr, ht, List.append_assoc, List.cons_append, parse, Cursor.start, hread]
    simp [prepend]

/-- **Any conversion completes a directive that is cut off**, which is the last piece then.  What is
missing is missed at the end. -/
theorem parse_append_conversion {position : Nat}
    (h : (parse text).error? = some (.unexpectedEnd position)) :
    position = byteLength text ∧
      ∃ a, ∀ k : Conversion,
        parse (text ++ [k.char]) = ⟨(parse text).pieces ++ [.directive a k], none⟩ := by
  obtain ⟨written, ⟨-, hr⟩ | ⟨t, e, ht, -, he, hr⟩⟩ := parse_cases text
  · rw [hr] at h
    cases h
  · obtain rfl : e = .unexpectedEnd position := by
      rw [hr] at h
      exact Option.some.inj h
    cases he with
    | unexpectedEnd s hs hu =>
      refine ⟨?_, s.attributes, ?_⟩
      · rw [ht, byteLength_percent]
      · intro k
        have hk : text ++ [k.char] =
            (written ++ [Written.directive s k]).flatMap Written.text := by
          simp [ht, hu, Written.text]
        rw [hk, parse_text, hr]
        simp [Written.piece]

end Template

/-! ## Failures that remain -/

namespace Formatter

variable {f : Formatter} {template : String} {arguments : List Value}

/-- A failure that is not for want of more template remains when there is more. -/
theorem format_append_of_error {e : FormatError} (h : f.format template arguments = .error e)
    (hend : ∀ position, e ≠ .malformed (.unexpectedEnd position)) (more : String) :
    f.format (template ++ more) arguments = .error e := by
  rw [format_eq_error, Template.fill_eq_error_iff] at h
  rw [format_eq_error, Template.fill_eq_error_iff, String.toList_append]
  rcases h with ⟨before, p, after, hps, hb, he⟩ | ⟨hfill, fault, hfault, rfl⟩
  · -- The piece that fails is read as before, and so is all before it.
    obtain ⟨later, hlater⟩ := Template.pieces_parse_append template.toList more.toList
    refine Or.inl ⟨before, p, after ++ later, ?_, hb, he⟩
    rw [← hlater, hps, List.append_assoc, List.cons_append]
  · cases fault with
    | unexpectedEnd position => exact absurd rfl (hend position)
    | unknownConversion c position =>
      rw [Template.parse_append_of_unknownConversion hfault]
      exact Or.inr ⟨hfill, _, hfault, rfl⟩

/-- A template that ends inside a directive is cut off there and nowhere else, and any conversion
makes a template of it that has no fault. -/
theorem format_append_conversion {position : Nat}
    (h : f.format template arguments = .error (.malformed (.unexpectedEnd position))) :
    position = template.utf8ByteSize ∧ ∀ (k : Conversion) (fault : TemplateError),
      f.format (template ++ String.singleton k.char) arguments ≠ .error (.malformed fault) := by
  rw [format_eq_error, Template.fill_eq_error_iff] at h
  obtain ⟨_, _, _, -, -, he⟩ | ⟨-, fault, hfault, he⟩ := h
  · cases he
  · cases he
    -- With the conversion the template has no fault, so only a piece can fail.
    obtain ⟨hposition, a, hparse⟩ := Template.parse_append_conversion hfault
    refine ⟨by rw [hposition, Text.byteLength_toList], ?_⟩
    intro k fault h
    rw [format_eq_error, Template.fill_eq_error_iff, String.toList_append,
      String.toList_singleton, hparse k] at h
    obtain ⟨_, _, _, -, -, he⟩ | ⟨-, _, hnone, -⟩ := h
    · cases he
    · cases hnone

/-- **Failures are final, except for an unfinished template.**  Where formatting fails, it fails in
the same way whatever follows the template, with the same character, position, index and number of
arguments; unless it fails because the template ends inside a directive.  Then the position is the
length of the template, and with any one conversion behind it, `s` among them, the template has no
fault: it is formatted, or an argument is missing, or there is no room for a text. -/
theorem format_error_final (f : Formatter) (template : String) (arguments : List Value)
    (e : FormatError) (h : f.format template arguments = .error e) :
    ((∀ position, e ≠ .malformed (.unexpectedEnd position)) →
      ∀ more, f.format (template ++ more) arguments = .error e) ∧
    ∀ position, e = .malformed (.unexpectedEnd position) →
      position = template.utf8ByteSize ∧ ∀ (k : Conversion) (fault : TemplateError),
        f.format (template ++ String.singleton k.char) arguments ≠
          .error (.malformed fault) := by
  refine ⟨format_append_of_error h, ?_⟩
  rintro position rfl
  exact format_append_conversion h

/-- A precision that could still grow, once in front of a character that is no conversion and once
at the end of the template. -/
theorem format_error_final_precision :
    (({} : Formatter).format "%.1y" [] = .error (.malformed (.unknownConversion 'y' 3)) ∧
      ({} : Formatter).format ("%.1y" ++ "0s") [] =
        .error (.malformed (.unknownConversion 'y' 3))) ∧
    (({} : Formatter).format "%.1" [] = .error (.malformed (.unexpectedEnd 3)) ∧
      ∀ fault, ({} : Formatter).format ("%.1" ++ "s") [] ≠ .error (.malformed fault)) := by
  have hunknown : ({} : Formatter).format "%.1y" [] =
      .error (.malformed (.unknownConversion 'y' 3)) := by
    decide +kernel
  have hend : ({} : Formatter).format "%.1" [] = .error (.malformed (.unexpectedEnd 3)) := by
    decide +kernel
  refine ⟨⟨hunknown, ?_⟩, ⟨hend, ?_⟩⟩
  · exact (format_error_final {} "%.1y" [] _ hunknown).1 nofun "0s"
  · exact ((format_error_final {} "%.1" [] _ hend).2 3 rfl).2 .string

end Formatter

end PercentFormat
