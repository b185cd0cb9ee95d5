import PercentFormat.Proofs.Capacity
import PercentFormat.Proofs.Concatenation
import PercentFormat.Proofs.Printing

/-!
# Numbers in directives

A number in a directive may be written with any number of digits, and it is kept in a word.  What is
read is its exact value, or the greatest word if the value is greater.

## Why it is not bookkeeping

There is no exact value that could be clamped.  At each digit the word so far is multiplied and the
digit is added to it, and each of the two may saturate; from then on the word says nothing about the
digits before it.  It still comes to one clamp of the value that was never there, since what has reached
the greatest word stays there, whatever digits follow.

An index is written from one and kept from zero, and the wording of a failure counts from one again.  So
there is a step by one at either end of the range.  Below, it stays in range because a number begins
with a digit other than `0`, and saturation cannot make it zero.  Above, the index of a missing argument
was written, and so lowered by one before; or it was taken in turn, and then all arguments had their
turn, so that it is no other than their number.

## Main definitions

* `Word.saturatingAdd`, `Word.saturatingMul`, `Digits.word`: digits read in words
* `Word.IsIndex`: an index that words count from zero and from one
* `Digits.LongestIn`: all digits that a text begins with
* `Cursor.NumberSpec`: what reading a number does to a cursor
* `MissingArgument`: what is known of an argument that is not there

## Main results

* `toNat_word`: saturating twice at each digit is clamping once
* `numberSpec`: all digits ahead are read, or none
* `representable_iff`: the attributes that can be read
* `missingArgument`: the index of a missing argument was written, or is the number of arguments
* `numbers_saturate`: numbers in directives are exact up to saturation
-/

namespace PercentFormat

open Text (byteLength)

/-! ## Words -/

namespace Word

/-- The sum of two words, or the greatest word if the sum is greater. -/
def saturatingAdd (m n : BitVec 64) : BitVec 64 :=
  if m.uaddOverflow n then BitVec.allOnes 64 else m + n

/-- The product of two words, or the greatest word if the product is greater. -/
def saturatingMul (m n : BitVec 64) : BitVec 64 :=
  if m.umulOverflow n then BitVec.allOnes 64 else m * n

theorem toNat_saturatingAdd (m n : BitVec 64) :
    (saturatingAdd m n).toNat = min (m.toNat + n.toNat) wordMax := by
  unfold saturatingAdd
  split
  next h =>
    simp only [BitVec.uaddOverflow, decide_eq_true_eq] at h
    rw [BitVec.toNat_allOnes, wordMax]
    omega
  next h =>
    rw [BitVec.toNat_add_of_not_uaddOverflow h]
    simp only [BitVec.uaddOverflow, decide_eq_true_eq] at h
    rw [wordMax]
    omega

theorem toNat_saturatingMul (m n : BitVec 64) :
    (saturatingMul m n).toNat = min (m.toNat * n.toNat) wordMax := by
  unfold saturatingMul
  split
  next h =>
    simp only [BitVec.umulOverflow, decide_eq_true_eq] at h
    rw [BitVec.toNat_allOnes, wordMax]
    omega
  next h =>
    rw [BitVec.toNat_mul_of_not_umulOverflow h]
    simp only [BitVec.umulOverflow, decide_eq_true_eq] at h
    rw [wordMax]
    omega

/-- A word with one more digit. -/
def push (n : BitVec 64) (d : Char) : BitVec 64 :=
  saturatingAdd (saturatingMul n 10#64) (BitVec.ofNat 64 (d.toNat - '0'.toNat))

/-- One digit saturates once, although both operations may. -/
theorem toNat_push (n : BitVec 64) (d : Char) :
    (push n d).toNat = min (10 * n.toNat + (d.toNat - '0'.toNat)) wordMax := by
  have hd : (BitVec.ofNat 64 (d.toNat - '0'.toNat)).toNat = d.toNat - '0'.toNat := by
    have hlt : d.toNat < UInt32.size := d.val.toNat_lt
    rw [BitVec.toNat_ofNat, Nat.mod_eq_of_lt]
    simp only [UInt32.size] at hlt
    omega
  have hten : (10#64).toNat = 10 := rfl
  rw [push, toNat_saturatingAdd, toNat_saturatingMul, hd, hten]
  -- A product that has saturated is only made greater by the digit.
  omega

/-- An index that words count from zero and from one: neither step leaves their range. -/
structure IsIndex (i : Nat) : Prop where
  /-- The index is not the greatest word. -/
  succ_le : i + 1 ≤ wordMax
  /-- A number that is written, lowered by one. -/
  lower : (BitVec.ofNat 64 (i + 1) - 1#64).toNat = i
  /-- An index that is reported, raised by one. -/
  raise : (BitVec.ofNat 64 i + 1#64).toNat = i + 1

theorem isIndex_of_succ_le {i : Nat} (h : i + 1 ≤ wordMax) : IsIndex i := by
  have hlt : i + 1 < 2 ^ 64 := Nat.lt_succ_of_le h
  refine ⟨h, ?_, ?_⟩
  · rw [BitVec.toNat_sub, BitVec.toNat_ofNat, BitVec.toNat_ofNat]
    omega
  · rw [BitVec.toNat_add, BitVec.toNat_ofNat, BitVec.toNat_ofNat]
    omega

end Word

/-! ## Runs of digits -/

namespace Digits

/-- The number a run of digits stands for, in words throughout. -/
def word (ds : List Char) : BitVec 64 :=
  ds.foldl Word.push 0#64

/-- **Saturating twice at each digit is clamping once.** -/
theorem toNat_word (ds : List Char) : (word ds).toNat = min (value ds) wordMax := by
  rw [← saturated_eq_min]
  exact (List.foldl_hom BitVec.toNat fun n d => (Word.toNat_push n d).symm).symm

/-- A text begins with these digits, and with no more. -/
structure LongestIn (digits text : List Char) : Prop where
  begins : digits <+: text
  isDigit : ∀ d ∈ digits, '0' ≤ d ∧ d ≤ '9'
  longest : ∀ more, more <+: text → (∀ d ∈ more, '0' ≤ d ∧ d ≤ '9') → more.length ≤ digits.length

theorem longestIn_append {digits rest : List Char} (h : ∀ d ∈ digits, d.isDigit = true)
    (hr : ∀ d ∈ rest.head?, d.isDigit = false) : LongestIn digits (digits ++ rest) := by
  refine ⟨List.prefix_append _ _, fun d hd => isDigit_iff.mp (h d hd), ?_⟩
  rintro more ⟨t, ht⟩ hmore
  have hall : ∀ d ∈ more, d.isDigit = true := fun d hd => isDigit_iff.mpr (hmore d hd)
  -- Both runs are at the front of the digits that the text begins with, and one is all of them.
  have htake : digits = more ++ t.takeWhile Char.isDigit := by
    rw [← List.takeWhile_append_of_pos hall, ht, (Text.takeWhile_exact h hr).1]
  rw [htake, List.length_append]
  exact Nat.le_add_right _ _

end Digits

/-! ## Reading a number -/

namespace Cursor

variable {c c' : Cursor}

/-- What reading a number does to a cursor. -/
structure NumberSpec (c : Cursor) : Prop where
  /-- Unless the next character is one of `1` to `9`, nothing is read and the cursor stays. -/
  absent : (∀ d ∈ c.peek?, ¬ ('1' ≤ d ∧ d ≤ '9')) → c.readNumber? = (none, c)
  /-- Otherwise all digits ahead are taken and no more.  What is read is their value, clamped, which is
  not zero; and that is what they come to in words. -/
  present : ∀ d ∈ c.peek?, '1' ≤ d ∧ d ≤ '9' →
    ∃ (digits : List Char) (c' : Cursor), Digits.LongestIn digits c.rest ∧ c.Moves digits c' ∧
      c'.position = c.position + digits.length ∧
        c.readNumber? = (some (min (Digits.value digits) wordMax), c') ∧
          0 < min (Digits.value digits) wordMax ∧
            (Digits.word digits).toNat = min (Digits.value digits) wordMax

/-- **All digits ahead are read, or none.** -/
theorem numberSpec (c : Cursor) : c.NumberSpec := by
  obtain ⟨n, hmoves, hvalue, hstop⟩ := c.exists_numberText
  cases n with
  | none =>
    have hcursor : c.readNumber?.2 = c := hmoves.eq_of_nil
    refine ⟨fun _ => Prod.ext hvalue hcursor, ?_⟩
    intro d hd hleading
    have hnone := hstop d (by rwa [hcursor])
    simp [Numeral.extend?, isLeadingDigit_iff.mpr hleading] at hnone
  | some m =>
    constructor
    · intro habsent
      obtain ⟨d, hd, hl⟩ := m.leading
      have hpeek : d ∈ c.peek? := by
        have hhead : (Spelling.numberText (some m)).head? = some d := hd
        rw [peek?, hmoves.rest, List.head?_append, hhead]
        rfl
      exact absurd (isLeadingDigit_iff.mp hl) (habsent d hpeek)
    · intro d hd hleading
      have hlongest : Digits.LongestIn m.digits c.rest := by
        rw [hmoves.rest]
        apply Digits.longestIn_append m.isDigit
        intro e he
        simpa [Numeral.extend?] using hstop e he
      have hposition : c.readNumber?.2.position = c.position + m.digits.length := by
        rw [hmoves.position, ← Digits.byteLength_eq_length m.isDigit]
        rfl
      exact ⟨m.digits, c.readNumber?.2, hlongest, hmoves, hposition, Prod.ext hvalue rfl,
        m.value_pos, Digits.toNat_word m.digits⟩

/-! ## Indexes -/

theorem index_readAttributes_iff {i : Nat} :
    c.readAttributes.1.index = some i ↔
      c.readNumber?.1 = some (i + 1) ∧ c.readNumber?.2.peek? = some '$' := by
  have hindex : c.readAttributes.1.index = c.readIndexFlagsWidth.1.index := rfl
  rw [hindex, readIndexFlagsWidth]
  split
  next c' h =>
    have hnone : c'.readFlagsWidth.1.index = none := rfl
    simp [h, hnone]
  next v c' h =>
    have hpos : 0 < v := (readNumber?_range (c := c) (by rw [h]; rfl)).1
    rw [h]
    split
    next hdollar =>
      simp only [hdollar, Option.some.injEq, and_true]
      omega
    next hdollar => simp [hdollar]

end Cursor

theorem Spelling.representable (s : Spelling) : s.attributes.Representable := by
  have hvalue : ∀ n : Option Numeral, numberValue n ≤ wordMax := by
    intro n
    cases n with
    | none => exact Nat.zero_le _
    | some n => exact n.value_le
  refine ⟨?_, hvalue s.width, ?_⟩
  · intro i hi
    obtain ⟨n, -, rfl⟩ := Option.map_eq_some_iff.mp hi
    rw [Nat.sub_add_cancel n.value_pos]
    exact n.value_le
  · intro p hp
    obtain ⟨n, -, rfl⟩ := Option.map_eq_some_iff.mp hp
    exact hvalue n

/-- **The attributes that can be read** are those that a template can hold. -/
theorem Attributes.representable_iff {a : Attributes} :
    a.Representable ↔ ∃ c : Cursor, c.readAttributes.1 = a := by
  constructor
  · intro h
    exact ⟨_, congrArg Prod.fst (Cursor.readAttributes_printed h .string 0 [])⟩
  · rintro ⟨c, rfl⟩
    obtain ⟨s, -, -, hs⟩ := c.exists_longest
    rw [hs]
    exact s.representable

theorem Template.representable_of_mem {text : List Char} {a : Attributes} {k : Conversion}
    (h : .directive a k ∈ (parse text).pieces) : a.Representable := by
  obtain ⟨written, tail, -, hpieces⟩ := exists_written text
  rw [hpieces] at h
  obtain ⟨w, -, hw⟩ := List.mem_map.mp h
  cases w with
  | literal c hc => cases hw
  | percent => cases hw
  | directive s k' =>
    cases hw
    exact s.representable

/-! ## Missing arguments -/

/-- If the argument is missing that a directive asks for behind pieces that are filled, it is the one
whose number is written, or the first that is not there. -/
theorem Spelling.succ_selected_of_missing {nilToken : String} {arguments : List Value}
    {earlier : List Piece} (s : Spelling) (hfill : Fillable nilToken arguments [] earlier)
    (hmissing : arguments.length ≤ s.attributes.selected earlier) :
    s.attributes.selected earlier + 1 = s.index.elim (arguments.length + 1) Numeral.value := by
  have hsucc := s.succ_selected earlier
  have hturns : earlier.countP Piece.takesTurn ≤ arguments.length := hfill.countP_le (Nat.zero_le _)
  cases hindex : s.index with
  | some m => rw [hsucc, hindex, Option.elim_some, Option.elim_some]
  | none =>
    -- The turn is not that of an argument, but all turns before it were.
    rw [hindex, Option.elim_none] at hsucc
    rw [Option.elim_none]
    omega

/-- What is known of an argument that is not there: `i` is its index, and `n` how many arguments there
are. -/
structure MissingArgument (f : Formatter) (template : String) (arguments : List Value) (i n : Nat) :
    Prop where
  count : n = arguments.length
  le : n ≤ i
  /-- A directive asks for it, behind directives that are filled.  Counted from one, it has the number
  that is written, or if none is, the first that no argument has. -/
  directive : ∃ (before : List Written) (s : Spelling) (k : Conversion) (rest : List Char),
    template.toList = before.flatMap Written.text ++ '%' :: (s.text ++ k.char :: rest) ∧
      Filled f.nilToken arguments [] (before.map Written.piece) ∧
        i + 1 = s.index.elim (n + 1) Numeral.value
  /-- No text has more bytes than a text can have, and no list so many entries; either is enough. -/
  isIndex : template.utf8ByteSize ≤ textCapacity ∨ n < wordMax → Word.IsIndex i

namespace Formatter

variable {f : Formatter} {template : String} {arguments : List Value} {i n : Nat}

/-- **The index of a missing argument was written, or is the number of arguments.** -/
theorem missingArgument (h : f.format template arguments = .error (.argumentOutOfRange i n)) :
    MissingArgument f template arguments i n := by
  have hsize := fun hbytes => succ_le_wordMax_of_argumentOutOfRange hbytes h
  rw [format_eq_error, Template.fill_eq_error_iff] at h
  obtain ⟨before, p, after, hps, hb, he⟩ | ⟨-, fault, -, he⟩ := h
  · cases he with
    | noArgument hmissing =>
      obtain ⟨w, s, rest, rfl, rfl, ht⟩ := Template.exists_directive_of_pieces hps
      have hnumber := s.succ_selected_of_missing hb.fillable hmissing
      refine ⟨rfl, hmissing, ⟨w, s, _, rest, ht, hb, hnumber⟩, ?_⟩
      rintro (hbytes | hfew)
      · exact Word.isIndex_of_succ_le (hsize hbytes)
      · apply Word.isIndex_of_succ_le
        rw [hnumber]
        cases s.index with
        | none => exact hfew
        | some m => exact m.value_le
  · cases he

/-- **Numbers in directives are exact up to saturation.**

* Wherever a cursor stands, it reads a number exactly if the next character is one of `1` to `9`.  Then it
  takes all digits ahead, however many, and reads their value, or the greatest word if that is greater;
  the words that are computed at each digit come to the same.  It never reads zero.
* An index is such a number in front of a `$`, lowered by one, and stays in the range of a word by that.
* The attributes that can be read are those whose numbers do not exceed what a template can hold, and no
  directive of a template has others.
* An argument that is missing has an index from the number of arguments on, and that can be raised by one
  again.  It is the number that is written in the directive, or else the first that no argument has. -/
theorem numbers_saturate :
    (∀ c : Cursor, c.NumberSpec) ∧
    (∀ (c : Cursor) (i : Nat),
      (c.readAttributes.1.index = some i ↔
        c.readNumber?.1 = some (i + 1) ∧ c.readNumber?.2.peek? = some '$') ∧
      (c.readAttributes.1.index = some i → Word.IsIndex i)) ∧
    (∀ a : Attributes, a.Representable ↔ ∃ c : Cursor, c.readAttributes.1 = a) ∧
    (∀ (text : List Char) (a : Attributes) (k : Conversion),
      .directive a k ∈ (Template.parse text).pieces → a.Representable) ∧
    (∀ (f : Formatter) (template : String) (arguments : List Value) (i n : Nat),
      f.format template arguments = .error (.argumentOutOfRange i n) →
        MissingArgument f template arguments i n) := by
  refine ⟨Cursor.numberSpec, fun c i => ⟨Cursor.index_readAttributes_iff, ?_⟩,
    fun a => Attributes.representable_iff, fun text a k => Template.representable_of_mem,
    fun f template arguments i n => missingArgument⟩
  intro hindex
  have hrepresentable := Attributes.representable_iff.mpr ⟨c, rfl⟩
  exact Word.isIndex_of_succ_le (hrepresentable.index i hindex)

/-- Just beyond the words: `2 ^ 64` is read as the number before it, which is an index that can be
counted from one, and no argument has it.  Behind a `0`, nothing is read. -/
theorem numbers_saturate_beyond_words :
    (∃ (digits : List Char) (c : Cursor),
      Digits.LongestIn digits "18446744073709551616$s".toList ∧
        Cursor.readNumber? ⟨1, "18446744073709551616$s".toList⟩ = (some wordMax, c)) ∧
    Cursor.readNumber? ⟨1, "05d".toList⟩ = (none, ⟨1, "05d".toList⟩) ∧
    Word.IsIndex 18446744073709551614 ∧
    ({} : Formatter).format "%18446744073709551616$s" [] =
      .error (.argumentOutOfRange 18446744073709551614 0) ∧
    MissingArgument {} "%18446744073709551616$s" [] 18446744073709551614 0 := by
  obtain ⟨hnumber, hindex, -, -, hmissing⟩ := numbers_saturate
  have hformat : ({} : Formatter).format "%18446744073709551616$s" [] =
      .error (.argumentOutOfRange 18446744073709551614 0) := by
    decide +kernel
  refine ⟨?_, ?_, ?_, hformat, hmissing _ _ _ _ _ hformat⟩
  · obtain ⟨digits, c, hlongest, -, -, hread, -⟩ :=
      (hnumber ⟨1, "18446744073709551616$s".toList⟩).present '1' rfl (by decide)
    have hvalue : (Cursor.readNumber? ⟨1, "18446744073709551616$s".toList⟩).1 = some wordMax := by
      decide
    rw [hread] at hvalue
    exact ⟨digits, c, hlongest, hread.trans (congrArg (·, c) hvalue)⟩
  · exact (hnumber _).absent (by rintro d ⟨⟩; decide)
  · exact (hindex ⟨1, "18446744073709551616$s".toList⟩ _).2 (by decide)

end Formatter

end PercentFormat
