import PercentFormat.Proofs.Derivation
import PercentFormat.Proofs.Filling

/-!
# Templates one after the other

A template that is formatted ends at a boundary between pieces, so nothing of what follows it can
be drawn into it.  All that a template behind it takes over is its length in bytes, which moves
positions, the number of its directives without an index, which is where the turn goes on, and the
length of its output, which is room that is taken.

## Main definitions

* `TemplateError.relocate`, `FormatError.relocate`: a failure further on in a template
* `FormatError.shift`: a failure with more arguments in front
* `Formatter.formatFrom`: formatting that starts at a later turn, and behind other output

## Main results

* `read_relocate`: where a text stands moves its fault, and changes nothing else
* `formatFrom_drop`: without indexes, starting at a later turn is dropping the arguments before it
* `formatFrom_of_ok`, `formatFrom_of_error`: what other output in front can change is the room
* `format_append`: formatting two templates as one
-/

namespace PercentFormat

open Text (byteLength)

/-! ## Failures further on -/

/-- The fault of a text in front of which there are `n` more bytes. -/
def TemplateError.relocate (n : Nat) : TemplateError → TemplateError
  | .unexpectedEnd position => .unexpectedEnd (n + position)
  | .unknownConversion conversion position => .unknownConversion conversion (n + position)

namespace FormatError

/-- The failure of a template in front of which there are `n` more bytes.  Only the faults of
the template have a position. -/
def relocate (n : Nat) : FormatError → FormatError
  | .malformed e => .malformed (e.relocate n)
  | .argumentOutOfRange index count => .argumentOutOfRange index count
  | .capacityOverflow => .capacityOverflow

/-- The failure where `n` more arguments stand in front. -/
def shift (n : Nat) : FormatError → FormatError
  | .malformed e => .malformed e
  | .argumentOutOfRange index count => .argumentOutOfRange (index + n) (count + n)
  | .capacityOverflow => .capacityOverflow

end FormatError

theorem Faulty.relocate {k : Nat} {rest : List Char} {e : TemplateError} (h : Faulty k rest e)
    (n : Nat) : Faulty (n + k) rest (e.relocate n) := by
  cases h with
  | unexpectedEnd s hs ht =>
    rw [TemplateError.relocate, ← Nat.add_assoc]
    exact .unexpectedEnd s hs ht
  | unknownConversion s c t hs ht hc =>
    rw [TemplateError.relocate, ← Nat.add_assoc]
    exact .unknownConversion s c t hs ht hc

variable {nilToken : String} {arguments : List Value}

/-- What is in the way of a piece has no position. -/
theorem Obstacle.relocate_eq {earlier : List Piece} {p : Piece} {e : FormatError}
    (h : Obstacle nilToken arguments earlier p e) (n : Nat) : e.relocate n = e := by
  cases h <;> rfl

namespace Template

/-- **Where a text stands moves its fault**, and changes nothing else. -/
theorem read_relocate (n k : Nat) (rest : List Char) :
    read ⟨n + k, rest⟩ =
      ⟨(read ⟨k, rest⟩).pieces, (read ⟨k, rest⟩).error?.map (·.relocate n)⟩ := by
  obtain ⟨written, ⟨ht, hr⟩ | ⟨t, e, ht, hp, he, hr⟩⟩ := exists_derivation k rest
  · have hn := read_append written (n + k) []
    rw [List.append_nil, ← ht, read_nil] at hn
    rw [hn, hr]
    simp [prepend]
  · have hn := read_append written (n + k) ('%' :: t)
    have hf := he.relocate n
    rw [← Nat.add_assoc, ← Nat.add_assoc] at hf
    rw [← ht, read_faulty hp hf] at hn
    rw [hn, hr]
    simp [prepend]

/-- A text that is read to its end is read alike in front of any other. -/
theorem parse_append {t₁ : List Char} (h : (parse t₁).error? = none) (t₂ : List Char) :
    parse (t₁ ++ t₂) =
      ⟨(parse t₁).pieces ++ (parse t₂).pieces,
        (parse t₂).error?.map (·.relocate (byteLength t₁))⟩ := by
  obtain ⟨written, rfl⟩ := wellFormed_iff.mpr h
  have hread := read_append written 0 t₂
  rw [Nat.zero_add, ← Nat.add_zero (byteLength _), read_relocate] at hread
  rw [parse_text]
  exact hread

end Template

/-! ## Starting at a later turn -/

/-- The number of directives without an index in a template. -/
def turns (template : String) : Nat :=
  (Template.parse template.toList).pieces.countP Piece.takesTurn

/-- Formats a template behind an output of `length` bytes, with a list of arguments of which the
first `turn` have had their turn. -/
def Formatter.formatFrom (f : Formatter) (turn length : Nat) (template : String)
    (arguments : List Value) : Except FormatError String :=
  String.ofList <$>
    ((Template.parse template.toList).fill f.nilToken arguments turn length).outcome

theorem Formatter.formatFrom_zero (f : Formatter) (template : String) (arguments : List Value) :
    f.formatFrom 0 0 template arguments = f.format template arguments :=
  (f.format_eq template arguments).symm

theorem Fillable.countP_le {earlier ps : List Piece}
    (h : Fillable nilToken arguments earlier ps)
    (hle : earlier.countP Piece.takesTurn ≤ arguments.length) :
    (earlier ++ ps).countP Piece.takesTurn ≤ arguments.length := by
  induction ps generalizing earlier with
  | nil => rwa [List.append_nil]
  | cons p ps ih =>
    obtain ⟨hp, hps⟩ := h
    rw [show earlier ++ p :: ps = earlier ++ [p] ++ ps by simp]
    apply ih hps
    rw [List.countP_append]
    cases p with
    | literal c => exact hle
    | directive a k =>
      obtain ⟨v, hv, -⟩ := hp
      cases ha : a.index with
      | some i => simpa [Piece.takesTurn, ha] using hle
      | none =>
        have hlt := (List.getElem?_eq_some_iff.mp hv).1
        simp only [Attributes.selected, ha, Option.getD_none] at hlt
        simp only [List.countP_singleton, Piece.takesTurn, ha, Option.isNone_none, if_true]
        exact hlt

theorem mapError_bind {ε ε' α β : Type} (x : Except ε α) (f : α → Except ε β) (g : ε → ε') :
    (x >>= f).mapError g = x.mapError g >>= fun a => (f a).mapError g := by
  cases x <;> rfl

/-- A rendering that fails does so for want of capacity, whatever arguments there are. -/
theorem Conversion.mapError_outcome_render (a : Attributes) (v : Value) (k : Conversion)
    {g : FormatError → FormatError} (hg : g .capacityOverflow = .capacityOverflow) :
    (k.render a nilToken v).outcome.mapError g = (k.render a nilToken v).outcome := by
  rw [k.outcome_render]
  split
  · rfl
  · exact congrArg Except.error hg

/-- A directive without an index finds the same argument when those that have had their turn are
dropped. -/
theorem Piece.fill_drop {n : Nat} (hn : n ≤ arguments.length) {p : Piece}
    (hp : ∀ a k, p = .directive a k → a.index = none) (turn : Nat) :
    (p.fill nilToken arguments (n + turn)).outcome =
      (p.fill nilToken (arguments.drop n) turn).outcome.mapError (·.shift n) := by
  cases p with
  | literal c => rfl
  | directive a k =>
    have ha := hp a k rfl
    have hcount : arguments.length - n + n = arguments.length := Nat.sub_add_cancel hn
    rw [outcome_fill_directive, outcome_fill_directive]
    simp only [ha, Option.getD_none, List.getElem?_drop, List.length_drop]
    cases arguments[n + turn]? with
    | none =>
      show Except.error _ = Except.error (FormatError.shift n _)
      rw [FormatError.shift, hcount, Nat.add_comm]
    | some v => exact (k.mapError_outcome_render a v rfl).symm

namespace Template

/-- Without indexes, the arguments that have had their turn play no part. -/
theorem fillPieces_drop {n : Nat} (hn : n ≤ arguments.length) {ps : List Piece}
    (hps : ∀ a k, Piece.directive a k ∈ ps → a.index = none) (turn length : Nat) :
    (fillPieces nilToken arguments (n + turn) length ps).outcome =
      (fillPieces nilToken (arguments.drop n) turn length ps).outcome.mapError (·.shift n) := by
  induction ps generalizing turn length with
  | nil => rfl
  | cons p ps ih =>
    have hp : (p.fill nilToken arguments (n + turn)).outcome = _ :=
      Piece.fill_drop hn (fun a k h => hps a k (h ▸ List.mem_cons_self)) turn
    have hturn : p.turnAfter (n + turn) = n + p.turnAfter turn := by
      cases p with
      | literal c => rfl
      | directive a k => simp [Piece.turnAfter, hps a k List.mem_cons_self, Nat.add_assoc]
    have hrest := ih (fun a k h => hps a k (List.mem_cons_of_mem p h)) (p.turnAfter turn)
    have hreserve : ∀ text, (reserve length text).outcome.mapError (·.shift n) =
        (reserve length text).outcome := by
      intro text
      rw [reserve]
      split <;> rfl
    simp only [fillPieces, Run.outcome_bind, Run.outcome_pure, mapError_bind, hp, hturn, hrest,
      hreserve]
    rfl

/-! ## Starting behind other output -/

/-- Behind pieces that are filled, the turn and the output go on from where they leave them. -/
theorem outcome_fillAfter_append {ps : List Piece} (h : Filled nilToken arguments [] ps)
    (qs : List Piece) :
    (fillAfter nilToken arguments [] (ps ++ qs)).outcome =
      (output nilToken arguments [] ps ++ ·) <$> (fillAfter nilToken arguments ps qs).outcome := by
  have hfirst := fillAfter_of_filled h
  rw [fillAfter_nil] at hfirst ⊢
  rw [fillPieces_append, Run.bind_of_ok hfirst, Piece.foldl_turnAfter, Nat.zero_add, Nat.zero_add,
    ← outputLength, ← fillAfter, ← map_eq_pure_bind, Run.outcome_map]

theorem exists_of_fillPieces_cons {turn length : Nat} {p : Piece} {ps : List Piece}
    {text : List Char}
    (h : (fillPieces nilToken arguments turn length (p :: ps)).outcome = .ok text) :
    ∃ first rest, (p.fill nilToken arguments turn).outcome = .ok first ∧
      (fillPieces nilToken arguments (p.turnAfter turn) (length + byteLength first) ps).outcome =
          .ok rest ∧
        text = first ++ rest := by
  rw [outcome_fillPieces_cons] at h
  cases hp : (p.fill nilToken arguments turn).outcome with
  | error e =>
    rw [hp] at h
    cases h
  | ok first =>
    rw [hp] at h
    dsimp only [bind, Except.bind] at h
    split at h
    · cases hrest : (fillPieces nilToken arguments (p.turnAfter turn) (length + byteLength first)
          ps).outcome with
      | error e =>
        rw [hrest] at h
        cases h
      | ok rest =>
        rw [hrest] at h
        exact ⟨first, rest, rfl, hrest, (Except.ok.inj h).symm⟩
    · cases h

/-- Pieces that are filled behind some output are filled alike behind any other that leaves room
for their text. -/
theorem fillPieces_of_ok {turn m n : Nat} {ps : List Piece} {text : List Char}
    (h : (fillPieces nilToken arguments turn m ps).outcome = .ok text) (hn : n ≤ textCapacity) :
    (fillPieces nilToken arguments turn n ps).outcome =
      if n + byteLength text ≤ textCapacity then .ok text else .error .capacityOverflow := by
  induction ps generalizing turn m n text with
  | nil =>
    cases h
    exact (if_pos hn).symm
  | cons p ps ih =>
    obtain ⟨first, rest, hp, hrest, rfl⟩ := exists_of_fillPieces_cons h
    rw [outcome_fillPieces_cons, hp, Text.byteLength_append, ← Nat.add_assoc]
    dsimp only [bind, Except.bind]
    by_cases hroom : n + byteLength first ≤ textCapacity
    · rw [if_pos hroom, ih hrest hroom]
      split <;> rfl
    · rw [if_neg hroom, if_neg (by omega)]

/-- Pieces that are not filled behind some output are not filled behind more, either: what is in
their way is the same, unless the room ends before it. -/
theorem fillPieces_of_error {turn m n : Nat} {ps : List Piece} {e : FormatError}
    (h : (fillPieces nilToken arguments turn m ps).outcome = .error e) (hle : m ≤ n) :
    (fillPieces nilToken arguments turn n ps).outcome = .error e ∨
      (fillPieces nilToken arguments turn n ps).outcome = .error .capacityOverflow := by
  induction ps generalizing turn m n with
  | nil => cases h
  | cons p ps ih =>
    rw [outcome_fillPieces_cons] at h ⊢
    cases hp : (p.fill nilToken arguments turn).outcome with
    | error e' =>
      rw [hp] at h
      exact Or.inl h
    | ok first =>
      rw [hp] at h
      dsimp only [bind, Except.bind] at h ⊢
      by_cases hroom : n + byteLength first ≤ textCapacity
      · rw [if_pos (by omega)] at h
        rw [if_pos hroom]
        cases hrest : (fillPieces nilToken arguments (p.turnAfter turn) (m + byteLength first)
            ps).outcome with
        | error e' =>
          rw [hrest] at h
          obtain rfl : e' = e := Except.error.inj h
          exact (ih hrest (Nat.add_le_add_right hle _)).imp (congrArg _) (congrArg _)
        | ok rest =>
          rw [hrest] at h
          cases h
      · exact Or.inr (if_neg hroom)

end Template

namespace Formatter

variable {f : Formatter} {template : String} {arguments : List Value}

/-- Without indexes, starting at a later turn is dropping the arguments before it. -/
theorem formatFrom_drop {n : Nat} (hn : n ≤ arguments.length)
    (ht : ∀ a k, Piece.directive a k ∈ (Template.parse template.toList).pieces → a.index = none)
    (length : Nat) :
    f.formatFrom n length template arguments =
      (f.formatFrom 0 length template (arguments.drop n)).mapError (·.shift n) := by
  have hpieces : (Template.fillPieces f.nilToken arguments (n + 0) length _).outcome = _ :=
    Template.fillPieces_drop hn ht 0 length
  rw [formatFrom, formatFrom, Template.outcome_fill, Template.outcome_fill]
  rw [Nat.add_zero] at hpieces
  rw [hpieces]
  rcases (Template.fillPieces f.nilToken (arguments.drop n) 0 length _).outcome with e | text
  · rfl
  · cases (Template.parse template.toList).error? <;> rfl

/-- What is formatted by itself is formatted behind other output that leaves room for it. -/
theorem formatFrom_of_ok {o : String} (h : f.format template arguments = .ok o) {length : Nat}
    (hlength : length ≤ textCapacity) :
    f.formatFrom 0 length template arguments =
      if length + o.utf8ByteSize ≤ textCapacity then .ok o else .error .capacityOverflow := by
  obtain ⟨hfault, hfill, ho⟩ := Template.fill_eq_ok_iff.mp (format_eq_ok.mp h)
  have hpieces := Template.fillPieces_of_ok (Template.fillAfter_of_filled hfill) hlength
  rw [formatFrom, Template.outcome_fill, hfault]
  rw [← ho, Text.byteLength_toList] at hpieces
  rw [show (Template.fillPieces f.nilToken arguments 0 length _).outcome = _ from hpieces]
  split
  · exact congrArg Except.ok String.ofList_toList
  · rfl

/-- What fails by itself fails alike behind other output, unless the room ends before it. -/
theorem formatFrom_of_error {e : FormatError} (h : f.format template arguments = .error e)
    {length : Nat} (hlength : length ≤ textCapacity) :
    f.formatFrom 0 length template arguments = .error e ∨
      f.formatFrom 0 length template arguments = .error .capacityOverflow := by
  rw [← formatFrom_zero, formatFrom, Template.outcome_fill] at h
  rw [formatFrom, Template.outcome_fill]
  cases hpieces : (Template.fillPieces f.nilToken arguments 0 0
      (Template.parse template.toList).pieces).outcome with
  | error e' =>
    rw [hpieces] at h
    obtain rfl : e' = e := Except.error.inj h
    exact (Template.fillPieces_of_error hpieces (Nat.zero_le length)).imp
      (fun hmore => by rw [hmore]; rfl) (fun hmore => by rw [hmore]; rfl)
  | ok text =>
    rw [hpieces] at h
    rw [Template.fillPieces_of_ok hpieces hlength]
    -- The fault of the template is found out where there was room for all its pieces.
    split
    · exact Or.inl h
    · exact Or.inr rfl

/-- Behind a template that is formatted, the turn and the output go on from where it leaves them. -/
theorem format_append_formatFrom {t₁ o₁ : String} (h : f.format t₁ arguments = .ok o₁)
    (t₂ : String) :
    f.format (t₁ ++ t₂) arguments =
      ((f.formatFrom (turns t₁) o₁.utf8ByteSize t₂ arguments).mapError
        (·.relocate t₁.utf8ByteSize)).map (o₁ ++ ·) := by
  obtain ⟨hfault, hfill, ho⟩ := Template.fill_eq_ok_iff.mp (format_eq_ok.mp h)
  have hsplit := Template.outcome_fillAfter_append hfill (Template.parse t₂.toList).pieces
  have hresume : Template.fillPieces f.nilToken arguments (turns t₁) o₁.utf8ByteSize
        (Template.parse t₂.toList).pieces =
      Template.fillAfter f.nilToken arguments (Template.parse t₁.toList).pieces
        (Template.parse t₂.toList).pieces := by
    rw [Template.fillAfter, outputLength, ← ho, Text.byteLength_toList, turns]
  rw [Template.fillAfter_nil, ← ho] at hsplit
  rw [format_eq, formatFrom, String.toList_append, Template.parse_append hfault,
    Text.byteLength_toList, Template.outcome_fill, Template.outcome_fill, hsplit, hresume]
  -- Only a fault of the second template has a position to move.
  cases hsecond : (Template.fillAfter f.nilToken arguments (Template.parse t₁.toList).pieces
      (Template.parse t₂.toList).pieces).outcome with
  | error e =>
    obtain ⟨_, _, _, -, -, he⟩ := (Template.fillAfter_eq_error_iff hfill.nil).mp hsecond
    exact congrArg Except.error (he.relocate_eq t₁.utf8ByteSize).symm
  | ok text =>
    cases (Template.parse t₂.toList).error? with
    | some e => rfl
    | none =>
      show Except.ok (String.ofList (o₁.toList ++ text)) = Except.ok (o₁ ++ String.ofList text)
      rw [String.ofList_append, String.ofList_toList]

/-- **Two templates formatted as one.**  If the first is formatted by itself, to `o₁`, the two are
formatted as the second is from the turn that the first leaves, and behind an output as long as
`o₁`: `o₁` comes before its text, or its failure stands further on by the length of the first.  If
the second has no index, the turn that is left amounts to dropping the arguments the first has taken
in turn, of which there are enough.  What the second is formatted to by itself then stands behind
`o₁`, or how it fails stands further on; unless there is no room for that behind `o₁`. -/
theorem format_append (f : Formatter) (t₁ t₂ : String) (arguments : List Value) (o₁ : String)
    (h : f.format t₁ arguments = .ok o₁) :
    f.format (t₁ ++ t₂) arguments =
        ((f.formatFrom (turns t₁) o₁.utf8ByteSize t₂ arguments).mapError
          (·.relocate t₁.utf8ByteSize)).map (o₁ ++ ·) ∧
      turns t₁ ≤ arguments.length ∧
      ((∀ a k, Piece.directive a k ∈ (Template.parse t₂.toList).pieces → a.index = none) →
        f.format (t₁ ++ t₂) arguments =
          ((f.formatFrom 0 o₁.utf8ByteSize t₂ (arguments.drop (turns t₁))).mapError
            fun e => (e.shift (turns t₁)).relocate t₁.utf8ByteSize).map (o₁ ++ ·) ∧
        (∀ o₂, f.format t₂ (arguments.drop (turns t₁)) = .ok o₂ →
          f.format (t₁ ++ t₂) arguments =
            if (o₁ ++ o₂).utf8ByteSize ≤ textCapacity then .ok (o₁ ++ o₂)
            else .error .capacityOverflow) ∧
        ∀ e, f.format t₂ (arguments.drop (turns t₁)) = .error e →
          f.format (t₁ ++ t₂) arguments =
              .error ((e.shift (turns t₁)).relocate t₁.utf8ByteSize) ∨
            f.format (t₁ ++ t₂) arguments = .error .capacityOverflow) := by
  obtain ⟨hfault, hfill, ho⟩ := Template.fill_eq_ok_iff.mp (format_eq_ok.mp h)
  have hlength : o₁.utf8ByteSize ≤ textCapacity := by
    rw [← Text.byteLength_toList, ho]
    exact hfill.room
  have hturns : turns t₁ ≤ arguments.length := by
    have hle := hfill.fillable.countP_le (Nat.zero_le _)
    rwa [List.nil_append] at hle
  have happend := format_append_formatFrom h t₂
  refine ⟨happend, hturns, fun hindex => ?_⟩
  have hdrop : f.format (t₁ ++ t₂) arguments =
      ((f.formatFrom 0 o₁.utf8ByteSize t₂ (arguments.drop (turns t₁))).mapError
        fun e => (e.shift (turns t₁)).relocate t₁.utf8ByteSize).map (o₁ ++ ·) := by
    rw [happend, formatFrom_drop hturns hindex]
    cases f.formatFrom 0 o₁.utf8ByteSize t₂ (arguments.drop (turns t₁)) <;> rfl
  refine ⟨hdrop, fun o₂ ho₂ => ?_, fun e he => ?_⟩
  · rw [hdrop, formatFrom_of_ok ho₂ hlength, String.utf8ByteSize_append]
    split <;> rfl
  · rw [hdrop]
    exact (formatFrom_of_error he hlength).imp (fun hmore => by rw [hmore]; rfl)
      (fun hmore => by rw [hmore]; rfl)

/-- Digits and a `$` that follow a directive stay with the second template. -/
theorem format_append_seam :
    ({} : Formatter).format "%s" [.text "a", .text "b"] = .ok "a" ∧
      (∀ a k, Piece.directive a k ∈ (Template.parse "5$%s".toList).pieces → a.index = none) ∧
        ({} : Formatter).format ("%s" ++ "5$%s") [.text "a", .text "b"] = .ok "a5$b" := by
  have h : ({} : Formatter).format "%s" [.text "a", .text "b"] = .ok "a" := by
    decide +kernel
  have hpieces : (Template.parse "5$%s".toList).pieces =
      [.literal '5', .literal '$', .directive {} .string] := by
    decide +kernel
  have hindex : ∀ a k,
      Piece.directive a k ∈ (Template.parse "5$%s".toList).pieces → a.index = none := by
    intro a k hmem
    rw [hpieces] at hmem
    simp only [List.mem_cons, reduceCtorEq, List.not_mem_nil, or_false, false_or,
      Piece.directive.injEq] at hmem
    rw [hmem.1]
  obtain ⟨-, -, hdrop⟩ := format_append {} "%s" "5$%s" [.text "a", .text "b"] "a" h
  refine ⟨h, hindex, (hdrop hindex).1.trans ?_⟩
  decide +kernel

/-- The room that is taken counts: by itself the second template fails at its unknown conversion, and
behind the `x` it does not get there. -/
theorem format_append_overflow :
    ({} : Formatter).format "x" [.text ""] = .ok "x" ∧ turns "x" = 0 ∧
      (∀ a k, Piece.directive a k ∈ (Template.parse "%9223372036854775807s%q".toList).pieces →
        a.index = none) ∧
        ({} : Formatter).format "%9223372036854775807s%q" [.text ""] =
            .error (.malformed (.unknownConversion 'q' 22)) ∧
          ({} : Formatter).format ("x" ++ "%9223372036854775807s%q") [.text ""] =
            .error .capacityOverflow := by
  have hsecond : Template.parse "%9223372036854775807s%q".toList =
      ⟨[.directive { width := textCapacity } .string], some (.unknownConversion 'q' 22)⟩ := by
    decide +kernel
  have hboth : Template.parse ("x" ++ "%9223372036854775807s%q").toList =
      ⟨[.literal 'x', .directive { width := textCapacity } .string],
        some (.unknownConversion 'q' 23)⟩ := by
    decide +kernel
  refine ⟨by decide +kernel, by decide +kernel, ?_, ?_, ?_⟩
  · intro a k hmem
    rw [hsecond] at hmem
    cases List.mem_singleton.mp hmem
    rfl
  · rw [format_eq_error, Template.fill_eq_error_iff, hsecond]
    refine Or.inr ⟨⟨⟨⟨.text "", rfl, by decide⟩, trivial⟩, ?_⟩, _, rfl, rfl⟩
    have hlength : outputLength defaultNilToken [.text ""]
        ([] ++ [.directive { width := textCapacity } .string]) = _ :=
      outputLength_directive (v := .text "") rfl (by decide) rfl
    exact Nat.le_of_eq hlength
  · exact format_overflow_of_width (by rw [hboth]) rfl rfl (Nat.le_refl _)

end Formatter

end PercentFormat
