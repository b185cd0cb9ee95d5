import PercentFormat.Proofs.Substitution

/-!
# What a call depends on

A call asks for arguments, and in every other way it does not depend on them.  What it does not ask
for may be anything, as long as the number of arguments is kept: where one is missing, that number
is in the failure.  Where none is missing, even the number is not noticed.  And the nil token comes
in only where an absent argument is asked for as a text.

## Main results

* `fillPieces_append_arguments`: arguments behind the others are not noticed where none is missing
* `run_depends_on_requests`: what a call depends on
-/

namespace PercentFormat

variable {nilToken : String} {arguments : List Value}

namespace Template

/-- Pieces that are filled are filled alike if there are more arguments. -/
theorem fillPieces_append_arguments {ps : List Piece} (h : Filled nilToken arguments [] ps)
    (extra : List Value) :
    fillPieces nilToken arguments 0 0 ps = fillPieces nilToken (arguments ++ extra) 0 0 ps := by
  apply fillAfter_eq_of_fill_eq filled_nil
  rintro before p after rfl -
  have hp := h.fillable.canFill
  rw [List.nil_append] at hp ⊢
  cases p with
  | literal c => rfl
  | directive a k =>
    obtain ⟨v, hv, -⟩ := hp
    have hmore : (arguments ++ extra)[a.selected before]? = some v := by
      rw [List.getElem?_append_left (List.getElem?_eq_some_iff.mp hv).1, hv]
    rw [Attributes.selected] at hv hmore
    rw [Piece.fill, Piece.fill, selectArgument, selectArgument, hv, hmore]

end Template

/-! ## The nil token -/

/-- As a text, any argument but an absent one has a text of its own; and no number needs a token. -/
theorem Conversion.core_nilToken {k : Conversion} {v : Value}
    (h : k = .string ∨ k = .object → v ≠ .absent) (a : Attributes)
    (nilToken nilToken' : String) : k.core a nilToken v = k.core a nilToken' v := by
  have htext : k = .string ∨ k = .object →
      v.naturalText?.getD nilToken = v.naturalText?.getD nilToken' := by
    intro hk
    cases v with
    | absent => exact absurd rfl (h hk)
    | _ => rfl
  cases k with
  | string => rw [core, core, htext (Or.inl rfl)]
  | object => rw [core, core, htext (Or.inr rfl)]
  | decimal => rfl
  | float => rfl

namespace Formatter

theorem format_append_arguments {f : Formatter} {template : String} {arguments : List Value}
    {o : String} (h : f.format template arguments = .ok o) (extra : List Value) :
    f.format template (arguments ++ extra) = .ok o := by
  rw [format_eq_ok] at h ⊢
  obtain ⟨-, hfill, -⟩ := Template.fill_eq_ok_iff.mp h
  rwa [Template.fill, ← Template.fillPieces_append_arguments hfill extra]

/-- **A call depends only on what it asks for.**  Of two lists of arguments of one length that agree
wherever the call with the first one asks, the call makes the same: the same outcome, with the same
log.  Where it succeeds, it does so with the same result whatever more arguments there are.  And if
what it asks for as a text is never an absent argument, any nil token will do. -/
theorem run_depends_on_requests (f : Formatter) (template : String) (arguments : List Value) :
    (∀ arguments', arguments.length = arguments'.length →
      (∀ k i, (k, i) ∈ f.requests template arguments → arguments[i]? = arguments'[i]?) →
        f.run template arguments = f.run template arguments') ∧
    (∀ o, f.format template arguments = .ok o →
      ∀ extra, f.format template (arguments ++ extra) = .ok o) ∧
    ((∀ k i, (k, i) ∈ f.requests template arguments → k = .string ∨ k = .object →
        arguments[i]? ≠ some .absent) →
      ∀ nilToken, f.run template arguments = (f.withNilToken nilToken).run template arguments) := by
  refine ⟨?_, fun o => format_append_arguments, ?_⟩
  · intro arguments' hlength hagree
    apply run_congr hlength
    intro k i hmem v v' hv hv' a
    obtain rfl : v = v' := by
      rw [hagree k i hmem, hv'] at hv
      exact (Option.some.inj hv).symm
    rfl
  · intro habsent nilToken
    apply run_congr rfl
    intro k i hmem v v' hv hv' a
    obtain rfl : v = v' := Option.some.inj (hv.symm.trans hv')
    apply Conversion.core_nilToken
    rintro hk rfl
    exact habsent k i hmem hk hv

/-- A template that names its third argument, but only behind a directive that fails. -/
theorem run_depends_on_requests_unreached :
    (({} : Formatter).requests "%2$s %d %9$s %3$s" [.int 1, .text "a", .absent] =
        [(.string, 1), (.decimal, 0), (.string, 8)] ∧
      ({} : Formatter).run "%2$s %d %9$s %3$s" [.int 1, .text "a", .absent] =
        ({} : Formatter).run "%2$s %d %9$s %3$s" [.int 1, .text "a", .text "b"] ∧
      ({} : Formatter).run "%2$s %d %9$s %3$s" [.int 1, .text "a", .absent] =
        (({} : Formatter).withNilToken "-").run "%2$s %d %9$s %3$s"
          [.int 1, .text "a", .absent]) ∧
    (({} : Formatter).format "%2$s %d" [.int 1, .text "a"] = .ok "a 1" ∧
      ({} : Formatter).format "%2$s %d" ([.int 1, .text "a"] ++ [.absent]) = .ok "a 1") := by
  have hrequests : ({} : Formatter).requests "%2$s %d %9$s %3$s" [.int 1, .text "a", .absent] =
      [(.string, 1), (.decimal, 0), (.string, 8)] := by
    decide +kernel
  have hok : ({} : Formatter).format "%2$s %d" [.int 1, .text "a"] = .ok "a 1" := by
    decide +kernel
  obtain ⟨hagree, -, hnil⟩ :=
    run_depends_on_requests {} "%2$s %d %9$s %3$s" [.int 1, .text "a", .absent]
  refine ⟨⟨hrequests, ?_, ?_⟩, ⟨hok, ?_⟩⟩
  · apply hagree [.int 1, .text "a", .text "b"] rfl
    intro k i hmem
    rw [hrequests] at hmem
    simp only [List.mem_cons, Prod.mk.injEq, List.not_mem_nil, or_false] at hmem
    obtain ⟨-, rfl⟩ | ⟨-, rfl⟩ | ⟨-, rfl⟩ := hmem <;> rfl
  · apply hnil
    intro k i hmem hk
    rw [hrequests] at hmem
    simp only [List.mem_cons, Prod.mk.injEq, List.not_mem_nil, or_false] at hmem
    obtain ⟨rfl, rfl⟩ | ⟨rfl, rfl⟩ | ⟨rfl, rfl⟩ := hmem
    · simp
    · simp at hk
    · simp
  · exact (run_depends_on_requests {} "%2$s %d" [.int 1, .text "a"]).2.1 "a 1" hok [.absent]

end Formatter

end PercentFormat
