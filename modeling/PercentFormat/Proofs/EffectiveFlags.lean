import PercentFormat.Proofs.Meaning

/-!
# What flags say

Flags are written in a row, and a row says less than it looks.  Neither order nor repetition is kept
when it is read, and of the set that is left, rendering asks three questions: on which side the text
stands, what it is padded with on the left, and what a number begins with if it is not negative.  So
`#` says nothing, `0` says nothing beside `-`, and a space says nothing beside `+`.

## Why it is not bookkeeping

A row of flags is no part of a template that could be cut out and replaced like an argument.  It has no
end of its own: `0` is a flag and a digit, and without any flags a width stands where an index could.
Whatever is written in the place of the flags, the rest of the directive has to be read as before, and
it is, since the grammar derives the one as well as the other and no text has two derivations.

## Main definitions

* `Flags.Agree`: what two rows of flags have in common if they say the same
* `Attributes.ShowAlike`: attributes that no conversion tells apart
* `FlagHole`: a template with a hole where the flags of one of its directives stand

## Main results

* `agree_iff`: rows of flags agree exactly if the three questions are answered alike
* `render_eq`: rendering asks no others
* `agree_iff_format_eq`: rows of flags agree exactly if no template tells them apart
-/

namespace PercentFormat

namespace Flags

/-! ## Rows of flags -/

/-- What two rows of flags have in common if they say the same. -/
structure Agree (fs gs : List Flag) : Prop where
  leftJustify : Flag.leftJustify ∈ fs ↔ Flag.leftJustify ∈ gs
  /-- Beside `-`, a zero says nothing. -/
  zero : Flag.leftJustify ∉ fs → (Flag.zero ∈ fs ↔ Flag.zero ∈ gs)
  plus : Flag.plus ∈ fs ↔ Flag.plus ∈ gs
  /-- Beside `+`, a space says nothing. -/
  space : Flag.plus ∉ fs → (Flag.space ∈ fs ↔ Flag.space ∈ gs)

variable {fs gs : List Flag}

/-- Neither order nor repetition is anything to agree on, nor is `#`. -/
theorem agree_of_mem_iff (h : ∀ g, g ≠ .alternate → (g ∈ fs ↔ g ∈ gs)) : Agree fs gs where
  leftJustify := h _ nofun
  zero _ := h _ nofun
  plus := h _ nofun
  space _ := h _ nofun

/-- A `-` cancels all zeros. -/
theorem agree_filter_zero (h : .leftJustify ∈ fs) : Agree fs (fs.filter (· != .zero)) where
  leftJustify := by simp
  zero hne := absurd h hne
  plus := by simp
  space _ := by simp

/-- A `+` cancels all spaces. -/
theorem agree_filter_space (h : .plus ∈ fs) : Agree fs (fs.filter (· != .space)) where
  leftJustify := by simp
  zero _ := by simp
  plus := by simp
  space hne := absurd h hne

theorem ofList_eq (fs : List Flag) :
    ofList fs = ⟨fs.contains .space, fs.contains .plus, fs.contains .leftJustify, fs.contains .zero,
      fs.contains .alternate⟩ := by
  simp only [← contains_ofList]
  rfl

end Flags

namespace Attributes

variable {a b : Attributes} {fs gs : List Flag}

/-! ## Three questions -/

theorem leftJustify_ofList (h : a.flags = .ofList fs) :
    a.flags.leftJustify = decide (.leftJustify ∈ fs) := by
  simp [h, Flags.ofList_eq]

theorem fill_ofList (h : a.flags = .ofList fs) :
    a.fill = if .leftJustify ∈ fs then ' ' else if .zero ∈ fs then '0' else ' ' := by
  by_cases hleft : .leftJustify ∈ fs <;> simp [fill, h, Flags.ofList_eq, hleft]

theorem numberSign_ofList (h : a.flags = .ofList fs) :
    a.numberSign = if .plus ∈ fs then ['+'] else if .space ∈ fs then [' '] else [] := by
  simp [numberSign, h, Flags.ofList_eq]

/-- **Rows of flags agree exactly if three questions are answered alike.** -/
theorem agree_iff (ha : a.flags = .ofList fs) (hb : b.flags = .ofList gs) :
    Flags.Agree fs gs ↔ a.flags.leftJustify = b.flags.leftJustify ∧ a.fill = b.fill ∧
      a.numberSign = b.numberSign := by
  rw [leftJustify_ofList ha, leftJustify_ofList hb, fill_ofList ha, fill_ofList hb,
    numberSign_ofList ha, numberSign_ofList hb, decide_eq_decide]
  constructor
  · rintro ⟨hleft, hzero, hplus, hspace⟩
    refine ⟨hleft, ?_, ?_⟩
    · by_cases h : .leftJustify ∈ fs
      · rw [if_pos h, if_pos (hleft.mp h)]
      · simp only [if_neg h, if_neg (hleft.not.mp h), hzero h]
    · by_cases h : .plus ∈ fs
      · rw [if_pos h, if_pos (hplus.mp h)]
      · simp only [if_neg h, if_neg (hplus.not.mp h), hspace h]
  · rintro ⟨hleft, hfill, hsign⟩
    -- Each answer tells which of its flags there are, since no two of its cases are the same.
    refine ⟨hleft, ?_, ?_, ?_⟩
    · intro h
      rw [if_neg h, if_neg (hleft.not.mp h)] at hfill
      grind
    · grind
    · grind

theorem side_inj
    (h : (if a.flags.leftJustify then ['x', ' '] else [a.fill, 'x']) =
      if b.flags.leftJustify then ['x', ' '] else [b.fill, 'x']) :
    a.flags.leftJustify = b.flags.leftJustify ∧ a.fill = b.fill := by
  cases ha : a.flags.leftJustify <;> cases hb : b.flags.leftJustify
  · simpa [ha, hb] using h
  · simp [ha, hb] at h
  · simp [ha, hb] at h
  · simp [fill, ha, hb]

/-! ## No other questions -/

/-- Attributes that give the same width and precision, and answer the three questions alike. -/
structure ShowAlike (a b : Attributes) : Prop where
  width : a.width = b.width
  precision : a.precision = b.precision
  leftJustify : a.flags.leftJustify = b.flags.leftJustify
  fill : a.fill = b.fill
  numberSign : a.numberSign = b.numberSign

namespace ShowAlike

variable (h : ShowAlike a b)

include h

theorem pad_eq (core : List Char) : a.pad core = b.pad core := by
  simp only [pad, h.width, h.leftJustify, h.fill]

theorem integerText_eq (i : Int) : a.integerText i = b.integerText i := by
  simp only [integerText, h.numberSign]

theorem floatText_eq (x : Binary64) : a.floatText x = b.floatText x := by
  simp only [floatText, h.numberSign, h.precision]

/-- **Rendering asks no other questions.** -/
theorem render_eq (k : Conversion) (nilToken : String) (v : Value) :
    k.render a nilToken v = k.render b nilToken v := by
  have hinteger : a.integerText = b.integerText := funext h.integerText_eq
  have hfloat : a.floatText = b.floatText := funext h.floatText_eq
  have hpad : a.pad = b.pad := funext h.pad_eq
  cases k <;>
    simp only [Conversion.render, Conversion.core, Conversion.cut, hinteger, hfloat, hpad, h.precision]

end ShowAlike

end Attributes

/-! ## Flags in a template -/

/-- A template with a hole where the flags of one of its directives stand. -/
structure FlagHole where
  /-- What is written in front of the directive. -/
  before : List Written
  /-- The directive.  What it has for flags is left aside. -/
  spelling : Spelling
  conversion : Conversion
  /-- What is written behind it. -/
  after : List Written

namespace FlagHole

/-- The directive, once there are flags in the hole. -/
def directive (hole : FlagHole) (fs : List Flag) : Written :=
  .directive { hole.spelling with flags := fs } hole.conversion

/-- The template, once there are flags in the hole. -/
def plug (hole : FlagHole) (fs : List Flag) : String :=
  String.ofList ((hole.before ++ hole.directive fs :: hole.after).flatMap Written.text)

/-- What the directive's attributes mean then. -/
def attributes (hole : FlagHole) (fs : List Flag) : Attributes :=
  Spelling.attributes { hole.spelling with flags := fs }

/-- Every directive of every well-formed template is a hole with its flags in it. -/
theorem exists_plug {template : String} (h : WellFormed template.toList) {n : Nat} {a : Attributes}
    {k : Conversion} (hn : (Template.parse template.toList).pieces[n]? = some (.directive a k)) :
    ∃ (hole : FlagHole) (fs : List Flag), template = hole.plug fs ∧ hole.before.length = n ∧
      hole.attributes fs = a ∧ hole.conversion = k := by
  obtain ⟨written, ht⟩ := h
  rw [ht, Template.parse_text, List.getElem?_map, Option.map_eq_some_iff] at hn
  obtain ⟨w, hw, hpiece⟩ := hn
  obtain ⟨hlt, rfl⟩ := List.getElem?_eq_some_iff.mp hw
  cases hcase : written[n] with
  | literal c hc =>
    rw [hcase] at hpiece
    cases hpiece
  | percent =>
    rw [hcase] at hpiece
    cases hpiece
  | directive s k' =>
    have hsplit : written = written.take n ++ .directive s k' :: written.drop (n + 1) := by
      rw [← hcase, List.getElem_cons_drop, List.take_append_drop]
    have hmeant : Piece.directive s.attributes k' = .directive a k := by
      rw [← hpiece, hcase]
      rfl
    obtain ⟨ha, hk⟩ := Piece.directive.inj hmeant
    refine ⟨⟨written.take n, s, k', written.drop (n + 1)⟩, s.flags, ?_, ?_, ha, hk⟩
    · rw [plug, directive, ← hsplit, ← ht, String.ofList_toList]
    · exact List.length_take_of_le (Nat.le_of_lt hlt)

variable {fs gs : List Flag} (hole : FlagHole)

theorem parse_plug (fs : List Flag) :
    Template.parse (hole.plug fs).toList =
      ⟨hole.before.map Written.piece ++
        .directive (hole.attributes fs) hole.conversion :: hole.after.map Written.piece, none⟩ := by
  rw [plug, String.toList_ofList, Template.parse_text, List.map_append, List.map_cons]
  rfl

/-- Agreeing flags leave the rest of a directive alone. -/
theorem showAlike (h : Flags.Agree fs gs) :
    Attributes.ShowAlike (hole.attributes fs) (hole.attributes gs) := by
  have hanswers := (Attributes.agree_iff (a := hole.attributes fs) (b := hole.attributes gs) rfl
    rfl).mp h
  obtain ⟨hleft, hfill, hsign⟩ := hanswers
  exact ⟨rfl, rfl, hleft, hfill, hsign⟩

/-- **Agreeing flags can be replaced by each other.**  The directive asks for the same argument and
shows it in the same way, and those behind it are no worse off. -/
theorem format_plug_eq (h : Flags.Agree fs gs) (f : Formatter) (arguments : List Value) :
    f.format (hole.plug fs) arguments = f.format (hole.plug gs) arguments := by
  have hindex : (hole.attributes fs).index = (hole.attributes gs).index := rfl
  have hrender := (hole.showAlike h).render_eq hole.conversion f.nilToken
  rw [f.format_eq, f.format_eq, hole.parse_plug, hole.parse_plug]
  simp only [Template.fill, Template.fillPieces_append, Template.fillPieces, Piece.fill,
    Piece.turnAfter, hindex, hrender]

/-! ## Flags that are told apart -/

/-- A directive alone, that shows the only argument. -/
def alone (width : Option Numeral) (k : Conversion) : FlagHole :=
  ⟨[], ⟨none, [], width, none⟩, k, []⟩

/-- A directive alone shows its argument, padded to the width, if there is room for both. -/
theorem format_alone (f : Formatter) (width : Option Numeral) (k : Conversion) (fs : List Flag)
    {v : Value} {core : List Char}
    (hcore : k.coreText ((alone width k).attributes fs) f.nilToken v = core)
    (hroom : Text.byteLength core + ((alone width k).attributes fs).width ≤ textCapacity) :
    f.format ((alone width k).plug fs) [v] =
      .ok (String.ofList (((alone width k).attributes fs).padded core)) := by
  have hplug : (alone width k).plug fs =
      String.ofList ('%' :: (Spelling.text ⟨none, fs, width, none⟩ ++ [k.char])) := by
    simp [plug, alone, directive, Written.text]
  have hfits : ((alone width k).attributes fs).Fits core := fun _ => by omega
  have hrender := (k.outcome_render ((alone width k).attributes fs) f.nilToken v).trans
    (if_pos (hcore.symm ▸ hfits))
  rw [Conversion.rendered_of_precision rfl, hcore] at hrender
  rw [hplug]
  refine f.format_directive (s := ⟨none, fs, width, none⟩) rfl hrender ?_
  rw [Attributes.byteLength_padded]
  omega

theorem format_alone_decimal (f : Formatter) (fs : List Flag) :
    f.format ((alone none .decimal).plug fs) [.int 7] =
      .ok (String.ofList (((alone none .decimal).attributes fs).numberSign ++ ['7'])) := by
  have hcore : Conversion.decimal.coreText ((alone none .decimal).attributes fs) f.nilToken (.int 7) =
      ((alone none .decimal).attributes fs).numberSign ++ ['7'] := rfl
  have hroom : Text.byteLength (((alone none .decimal).attributes fs).numberSign ++ ['7']) + 0 ≤
      textCapacity := by
    unfold Attributes.numberSign
    split
    · decide
    · split <;> decide
  rw [format_alone f _ _ fs hcore hroom, Attributes.padded_of_le (Nat.zero_le _)]

/-- A width with room for a letter and what stands beside it. -/
def widthTwo : Numeral :=
  ⟨['2'], ⟨'2', rfl, rfl⟩, List.all_eq_true.mp rfl⟩

theorem format_alone_string (f : Formatter) (fs : List Flag) :
    f.format ((alone (some widthTwo) .string).plug fs) [.text "x"] =
      .ok (String.ofList (if ((alone (some widthTwo) .string).attributes fs).flags.leftJustify
        then ['x', ' '] else [((alone (some widthTwo) .string).attributes fs).fill, 'x'])) := by
  have hwidth : ((alone (some widthTwo) .string).attributes fs).width = 2 := rfl
  have hcore : Conversion.string.coreText ((alone (some widthTwo) .string).attributes fs) f.nilToken
      (.text "x") = ['x'] := by
    simp [Conversion.coreText, Value.naturalText?]
  rw [format_alone f _ _ fs hcore (by rw [hwidth]; decide), Attributes.padded, hwidth]
  rfl

/-- Flags that do not agree are told apart by `%d` of a digit or by `%2s` of a letter. -/
theorem agree_of_format_eq (f : Formatter)
    (hdecimal : f.format ((alone none .decimal).plug fs) [.int 7] =
      f.format ((alone none .decimal).plug gs) [.int 7])
    (hstring : f.format ((alone (some widthTwo) .string).plug fs) [.text "x"] =
      f.format ((alone (some widthTwo) .string).plug gs) [.text "x"]) :
    Flags.Agree fs gs := by
  rw [format_alone_decimal, format_alone_decimal] at hdecimal
  rw [format_alone_string, format_alone_string] at hstring
  have hsign : ((alone (some widthTwo) .string).attributes fs).numberSign =
      ((alone (some widthTwo) .string).attributes gs).numberSign :=
    List.append_cancel_right (String.ofList_injective (Except.ok.inj hdecimal))
  have hside := Attributes.side_inj (String.ofList_injective (Except.ok.inj hstring))
  exact (Attributes.agree_iff rfl rfl).mpr ⟨hside.1, hside.2, hsign⟩

/-- **What flags say.**  Every directive of every well-formed template is a hole with its flags in
it.  Two rows of flags agree exactly if there is no such hole, no formatter and no arguments that
tell them apart.

* Rows that have the same flags, apart from `#`, agree: order and repetition say nothing.
* Beside `-`, zeros can be left out.
* Beside `+`, spaces can be left out. -/
theorem agree_iff_format_eq :
    (∀ template : String, WellFormed template.toList → ∀ (n : Nat) (a : Attributes) (k : Conversion),
      (Template.parse template.toList).pieces[n]? = some (.directive a k) →
        ∃ (hole : FlagHole) (fs : List Flag), template = hole.plug fs ∧ hole.before.length = n ∧
          hole.attributes fs = a ∧ hole.conversion = k) ∧
    (∀ fs gs : List Flag, Flags.Agree fs gs ↔
      ∀ (hole : FlagHole) (f : Formatter) (arguments : List Value),
        f.format (hole.plug fs) arguments = f.format (hole.plug gs) arguments) ∧
    (∀ fs gs : List Flag, (∀ g, g ≠ .alternate → (g ∈ fs ↔ g ∈ gs)) → Flags.Agree fs gs) ∧
    (∀ fs : List Flag, .leftJustify ∈ fs → Flags.Agree fs (fs.filter (· != .zero))) ∧
    (∀ fs : List Flag, .plus ∈ fs → Flags.Agree fs (fs.filter (· != .space))) := by
  refine ⟨fun _ hwell _ _ _ => exists_plug hwell, ?_, fun _ _ => Flags.agree_of_mem_iff,
    fun _ => Flags.agree_filter_zero, fun _ => Flags.agree_filter_space⟩
  intro fs gs
  constructor
  · intro h hole f arguments
    exact hole.format_plug_eq h f arguments
  · intro h
    exact agree_of_format_eq ⟨""⟩ (h _ _ _) (h _ _ _)

/-- A zero and a `#` beside `-`, between an index and a width. -/
theorem agree_iff_format_eq_left :
    Formatter.format ⟨""⟩ "é%2$-0#2d" [.absent, .int 7] =
        Formatter.format ⟨""⟩ "é%2$-2d" [.absent, .int 7] ∧
      Formatter.format ⟨""⟩ "é%2$-2d" [.absent, .int 7] = .ok "é7 " := by
  let hole : FlagHole :=
    ⟨[.literal 'é' (by decide)], ⟨some widthTwo, [], some widthTwo, none⟩, .decimal, []⟩
  have h := agree_iff_format_eq.2.1 [.leftJustify, .zero, .alternate] [.leftJustify]
  have hagree : Flags.Agree [.leftJustify, .zero, .alternate] [.leftJustify] :=
    ⟨by decide, by decide, by decide, by decide⟩
  exact ⟨h.mp hagree hole ⟨""⟩ [.absent, .int 7], by decide +kernel⟩

end FlagHole

end PercentFormat
