import Mathlib.Logic.Equiv.Basic
import PercentFormat.Proofs.Printing
import PercentFormat.Proofs.Substitution

/-!
# Numbering directives

A directive without an index takes its argument in turn, and which turn that is can be counted
before any argument is known.  So every index can be written out: the numbered template asks for the
same arguments in the same order, fails where the other fails, and reports the same index when an
argument is missing.  Once all indices are written, the order of the arguments is a convention, and
a permutation of the arguments is made up for by renumbering.

## Why it is not bookkeeping

An index is written between the `%` and the flags, and with it a width no longer stands where the
first number of a directive stands; only because the grammar is unambiguous is the rest of the
directive read as before.  An index is also held in a machine word, while turns are counted without
bound.  The two agree as long as turns reach arguments: where the turn has passed the last argument,
the directive fails, and nothing behind it is looked at.  So it is enough that a word can hold the
number of the arguments.

## Main definitions

* `Written.numbered`: a template with every index written out
* `Written.renumbered`, `permuted`: the indices, and the arguments, in another order

## Main results

* `fillPieces_numbered`, `fillPieces_renumbered`: the pieces are filled as before
* `format_numbered`: neither numbering nor renumbering changes how formatting ends
-/

namespace PercentFormat

/-! ## Written indices -/

/-- The numeral that asks for the argument `i`, counted from zero; the numeral counts from one. -/
def Numeral.ofIndex (i : Nat) : Numeral :=
  ⟨Digits.ofNat (i + 1), Digits.exists_leadingDigit (Nat.succ_pos i),
    fun _ => Digits.isDigit_of_mem_ofNat⟩

theorem Numeral.value_ofIndex {i : Nat} (h : i < wordMax) : (ofIndex i).value = i + 1 := by
  show min (Digits.value (Digits.ofNat (i + 1))) wordMax = i + 1
  rw [Digits.value_ofNat, Nat.min_eq_left h]

namespace Spelling

variable (s : Spelling) {n : Nat} (σ : Equiv.Perm (Fin n))

/-- The attributes with the index `i`, in the place of their own if they have one. -/
def withIndex (i : Nat) : Spelling :=
  { s with index := some (.ofIndex i) }

/-- The attributes with the index `turn` if they have none. -/
def numbered (turn : Nat) : Spelling :=
  match s.index with
  | none => s.withIndex turn
  | some _ => s

/-- The attributes with their index permuted if it is one of the first `n`. -/
def renumbered : Spelling :=
  match s.attributes.index with
  | none => s
  | some i => if h : i < n then s.withIndex (σ ⟨i, h⟩) else s

variable {s}

theorem attributes_withIndex {i : Nat} (h : i < wordMax) :
    (s.withIndex i).attributes = { s.attributes with index := some i } := by
  simp only [attributes, withIndex, Option.map_some, Numeral.value_ofIndex h, Nat.add_sub_cancel]

end Spelling

namespace Written

/-- A piece with its attributes, if it is a directive, spelled in another way. -/
def respelled (g : Spelling → Spelling) : Written → Written
  | directive s k => directive (g s) k
  | w => w

/-- Every directive without an index is given the index of the argument whose turn it is, where
`turn` is the number of that argument at the start. -/
def numbered : Nat → List Written → List Written
  | _, [] => []
  | turn, w :: ws => w.respelled (·.numbered turn) :: numbered (w.piece.turnAfter turn) ws

/-- Every index below `n` is permuted. -/
def renumbered {n : Nat} (σ : Equiv.Perm (Fin n)) (ws : List Written) : List Written :=
  ws.map (respelled (·.renumbered σ))

end Written

example :
    (Written.numbered 0 [.directive ⟨none, [.zero], some (.ofIndex 7), none⟩ .decimal,
      .percent, .directive ⟨none, [], none, none⟩ .string]).flatMap Written.text =
        "%1$08d%%%2$s".toList := by
  decide +kernel

/-- The arguments in another order: the argument `i` moves to the place `σ i`. -/
def permuted (arguments : List Value) (σ : Equiv.Perm (Fin arguments.length)) : List Value :=
  List.ofFn fun i => arguments.get (σ.symm i)

@[simp] theorem length_permuted (arguments : List Value)
    (σ : Equiv.Perm (Fin arguments.length)) :
    (permuted arguments σ).length = arguments.length :=
  List.length_ofFn

theorem selectArgument_permuted (arguments : List Value)
    (σ : Equiv.Perm (Fin arguments.length)) (i : Fin arguments.length) :
    selectArgument (permuted arguments σ) (σ i) = selectArgument arguments i := by
  have hi : (permuted arguments σ)[(σ i).val]? = arguments[i.val]? := by
    rw [permuted, List.getElem?_ofFn, dif_pos (σ i).isLt, Fin.eta, Equiv.symm_apply_apply]
    exact (List.getElem?_eq_getElem i.isLt).symm
  rw [selectArgument, selectArgument, hi, List.getElem?_eq_getElem i.isLt]

theorem selectArgument_permuted_of_le {arguments : List Value}
    (σ : Equiv.Perm (Fin arguments.length)) {i : Nat} (h : arguments.length ≤ i) :
    selectArgument (permuted arguments σ) i = selectArgument arguments i := by
  have hpermuted : (permuted arguments σ)[i]? = none :=
    List.getElem?_eq_none (by rwa [length_permuted])
  rw [selectArgument, selectArgument, hpermuted, List.getElem?_eq_none h, length_permuted]

/-! ## Filling numbered pieces -/

theorem Conversion.render_index (k : Conversion) (a : Attributes) (i : Option Nat)
    (nilToken : String) (v : Value) :
    k.render { a with index := i } nilToken v = k.render a nilToken v := by
  cases k <;> rfl

variable {nilToken : String} {arguments arguments' : List Value}

namespace Piece

theorem fill_index {a : Attributes} {k : Conversion} {i : Option Nat} {turn turn' : Nat}
    (h : selectArgument arguments' (i.getD turn') =
      selectArgument arguments (a.index.getD turn)) :
    (directive { a with index := i } k).fill nilToken arguments' turn' =
      (directive a k).fill nilToken arguments turn := by
  simp only [fill, h, Conversion.render_index]

theorem turnAfter_le_of_fill {p : Piece} {turn : Nat} (hturn : turn ≤ arguments.length)
    {text : List Char} (h : (p.fill nilToken arguments turn).outcome = .ok text) :
    p.turnAfter turn ≤ arguments.length := by
  cases p with
  | literal c => exact hturn
  | directive a k =>
    rw [turnAfter]
    cases hi : a.index with
    | some i => exact hturn
    | none =>
      apply Nat.lt_of_not_le
      intro hle
      rw [outcome_fill_directive, hi, Option.getD_none, List.getElem?_eq_none hle] at h
      cases h

end Piece

namespace Written

theorem fill_numbered (h : arguments.length < wordMax) {turn : Nat}
    (hturn : turn ≤ arguments.length) (turn' : Nat) (w : Written) :
    (w.respelled (·.numbered turn)).piece.fill nilToken arguments turn' =
      w.piece.fill nilToken arguments turn := by
  cases w with
  | literal c hc => rfl
  | percent => rfl
  | directive s k =>
    cases hs : s.index with
    | none =>
      -- The index is written in the place of a turn that is within the arguments or just behind
      -- them, and so within a word.
      have hi : s.attributes.index = none := by rw [Spelling.attributes, hs, Option.map_none]
      rw [respelled, Spelling.numbered, hs, piece, piece,
        Spelling.attributes_withIndex (Nat.lt_of_le_of_lt hturn h)]
      apply Piece.fill_index
      rw [hi]
      rfl
    | some m =>
      have hi : s.attributes.index = some (m.value - 1) := by
        rw [Spelling.attributes, hs, Option.map_some]
      rw [respelled, Spelling.numbered, hs, piece]
      simp only [Piece.fill, hi, Option.getD_some]

theorem fill_renumbered (h : arguments.length < wordMax) (σ : Equiv.Perm (Fin arguments.length))
    {w : Written} (hw : w.piece.takesTurn = false) (turn turn' : Nat) :
    (w.respelled (·.renumbered σ)).piece.fill nilToken (permuted arguments σ) turn' =
      w.piece.fill nilToken arguments turn := by
  cases w with
  | literal c hc => rfl
  | percent => rfl
  | directive s k =>
    obtain ⟨i, hi⟩ : ∃ i, s.attributes.index = some i := by
      rw [← Option.isSome_iff_exists]
      simpa [piece, Piece.takesTurn] using hw
    rw [respelled, Spelling.renumbered, hi]
    dsimp only
    by_cases hlt : i < arguments.length
    · have hword : (σ ⟨i, hlt⟩).val < wordMax := Nat.lt_trans (σ ⟨i, hlt⟩).isLt h
      rw [dif_pos hlt, piece, piece, Spelling.attributes_withIndex hword]
      apply Piece.fill_index
      rw [hi, Option.getD_some, Option.getD_some, selectArgument_permuted]
    · rw [dif_neg hlt, piece]
      simp only [Piece.fill, hi, Option.getD_some,
        selectArgument_permuted_of_le σ (Nat.le_of_not_lt hlt)]

/-- Once every index is written, no directive takes its argument in turn. -/
theorem takesTurn_numbered {turn : Nat} {ws : List Written} :
    ∀ w ∈ numbered turn ws, w.piece.takesTurn = false := by
  induction ws generalizing turn with
  | nil => simp [numbered]
  | cons w ws ih =>
    rw [numbered, List.forall_mem_cons]
    refine ⟨?_, ih⟩
    cases w with
    | literal c hc => rfl
    | percent => rfl
    | directive s k =>
      cases hs : s.index <;>
        simp [respelled, Spelling.numbered, Spelling.withIndex, Spelling.attributes, piece,
          Piece.takesTurn, hs]

end Written

namespace Template

/-- **Writing the indices out does not change how pieces are filled.**  The numbered pieces take no
notice of the turn, so any may be theirs. -/
theorem fillPieces_numbered (h : arguments.length < wordMax) {turn : Nat}
    (hturn : turn ≤ arguments.length) (turn' length : Nat) (ws : List Written) :
    fillPieces nilToken arguments turn' length ((Written.numbered turn ws).map Written.piece) =
      fillPieces nilToken arguments turn length (ws.map Written.piece) := by
  -- By induction on the pieces.  What is carried along is that the turn has not passed the end of
  -- the arguments, and a piece that is filled keeps it so.
  induction ws generalizing turn turn' length with
  | nil => rfl
  | cons w ws ih =>
    rw [Written.numbered, List.map_cons, List.map_cons, fillPieces, fillPieces,
      Written.fill_numbered h hturn]
    refine Run.bind_congr fun text htext => Run.bind_congr fun n _ => ?_
    rw [ih (Piece.turnAfter_le_of_fill hturn htext)]

/-- **Nor does permuting the arguments, if the indices follow.** -/
theorem fillPieces_renumbered (h : arguments.length < wordMax)
    (σ : Equiv.Perm (Fin arguments.length)) {ws : List Written}
    (hws : ∀ w ∈ ws, w.piece.takesTurn = false) (turn turn' length : Nat) :
    fillPieces nilToken (permuted arguments σ) turn' length
        ((Written.renumbered σ ws).map Written.piece) =
      fillPieces nilToken arguments turn length (ws.map Written.piece) := by
  induction ws generalizing turn turn' length with
  | nil => rfl
  | cons w ws ih =>
    rw [List.forall_mem_cons] at hws
    rw [Written.renumbered, List.map_cons, List.map_cons, List.map_cons, fillPieces, fillPieces,
      Written.fill_renumbered h σ hws.1 turn]
    refine Run.bind_congr fun text _ => Run.bind_congr fun n _ => ?_
    rw [← Written.renumbered, ih hws.2 (w.piece.turnAfter turn)]

end Template

namespace Formatter

/-- **Sequential and explicit selection agree.**  Writing out the index of every directive that has
none, counted from the left, does not change how formatting ends: with the same text, or with the
same failure.  After that the order of the arguments does not matter: when they are permuted and
all indices that reach one are renumbered accordingly, formatting ends in the same way again.

The arguments have to be fewer than `wordMax`, as those of every call are: of two numerals that are
greater no directive knows the difference. -/
theorem format_numbered (f : Formatter) (written : List Written) (arguments : List Value)
    (h : arguments.length < wordMax) :
    f.format (String.ofList ((Written.numbered 0 written).flatMap Written.text)) arguments =
        f.format (String.ofList (written.flatMap Written.text)) arguments ∧
      ∀ σ : Equiv.Perm (Fin arguments.length),
        f.format (String.ofList
            ((Written.renumbered σ (Written.numbered 0 written)).flatMap Written.text))
            (permuted arguments σ) =
          f.format (String.ofList ((Written.numbered 0 written).flatMap Written.text))
            arguments := by
  have hformat : ∀ (ws : List Written) (arguments : List Value),
      f.format (String.ofList (ws.flatMap Written.text)) arguments = String.ofList <$>
        ((⟨ws.map Written.piece, none⟩ : Template).fill f.nilToken arguments 0 0).outcome := by
    intro ws arguments
    rw [format_eq, String.toList_ofList, Template.parse_text]
  refine ⟨?_, ?_⟩
  · rw [hformat, hformat, Template.fill, Template.fill,
      Template.fillPieces_numbered h (Nat.zero_le _)]
  · intro σ
    rw [hformat, hformat, Template.fill, Template.fill,
      Template.fillPieces_renumbered h σ Written.takesTurn_numbered 0]

/-- Two directives that take their arguments in turn around one that names the second, with the two
arguments swapped. -/
theorem format_numbered_swap :
    [Value.text "a", .text "b"].length < wordMax ∧
      ({} : Formatter).format "%1$2s%2$s%2$@" [.text "a", .text "b"] =
        ({} : Formatter).format "%2s%2$s%@" [.text "a", .text "b"] ∧
      ({} : Formatter).format "%2$2s%1$s%1$@" [.text "b", .text "a"] =
        ({} : Formatter).format "%1$2s%2$s%2$@" [.text "a", .text "b"] := by
  have hlength : [Value.text "a", .text "b"].length < wordMax := by decide
  have h := format_numbered {} [.directive ⟨none, [], some (.ofIndex 1), none⟩ .string,
    .directive ⟨some (.ofIndex 1), [], none, none⟩ .string,
    .directive ⟨none, [], none, none⟩ .object] [.text "a", .text "b"] hlength
  exact ⟨hlength, h.1, h.2 (Equiv.swap 0 1)⟩

end Formatter

end PercentFormat
