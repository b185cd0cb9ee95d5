import PercentFormat.Directive.Rendering
import PercentFormat.Template.Cursor

/-!
# Byte offsets

Texts are cut at byte offsets, and an offset inside a character is none to cut at.  Whoever holds a
rest of a text that was left over holds such an offset too: as many bytes as lie before it.  So what
has to be shown of a reader is that it leaves a rest, and its offsets are sound whatever the text.

## Main definitions

* `Text.sliceFrom?`: the text from a byte offset on, if there is a character boundary
* `Text.SlicesTo`: one text is left when another is cut where it begins

## Main results

* `sliceFrom?_eq_some_iff`: a text can be cut exactly between two parts of it
* `isSome_sliceFrom?_iff`: these are the valid positions of the string
* `sliceFrom?_position`: a cursor stands where its template can be cut
* `readsInRange`: the readers of numbers leave off where their text can be cut
* `exists_sliceFrom?_cut`: the precision cuts a text where it can be cut
-/

namespace PercentFormat

open Text (byteLength)

namespace Text

/-! ## Cutting a text -/

/-- The text from the byte offset `n` on; `none` if `n` lies inside a character or behind the
end. -/
def sliceFrom? : List Char → Nat → Option (List Char)
  | s, 0 => some s
  | [], _ + 1 => none
  | c :: s, n + 1 => if c.utf8Size ≤ n + 1 then sliceFrom? s (n + 1 - c.utf8Size) else none

theorem sliceFrom?_append (s t : List Char) : sliceFrom? (s ++ t) (byteLength s) = some t := by
  induction s with
  | nil => cases t <;> rfl
  | cons c s ih =>
    obtain ⟨k, hk⟩ := Nat.exists_eq_add_one_of_ne_zero (Nat.ne_of_gt c.utf8Size_pos)
    have hoffset : byteLength (c :: s) = k + byteLength s + 1 := by
      rw [byteLength_cons, hk]
      omega
    have hrest : k + byteLength s + 1 - c.utf8Size = byteLength s := by omega
    rw [hoffset, List.cons_append, sliceFrom?, if_pos (by omega), hrest, ih]

/-- **A text can be cut exactly between two parts of it.** -/
theorem sliceFrom?_eq_some_iff {s t : List Char} {n : Nat} :
    sliceFrom? s n = some t ↔ ∃ u, s = u ++ t ∧ byteLength u = n := by
  constructor
  · intro h
    fun_induction sliceFrom? s n with
    | case1 s =>
      cases h
      exact ⟨[], rfl, rfl⟩
    | case2 => cases h
    | case3 c s n hle ih =>
      obtain ⟨u, rfl, hu⟩ := ih h
      refine ⟨c :: u, rfl, ?_⟩
      rw [byteLength_cons, hu]
      omega
    | case4 => cases h
  · rintro ⟨u, rfl, rfl⟩
    exact sliceFrom?_append u t

/-- The offsets to cut at are the valid positions of the string. -/
theorem isSome_sliceFrom?_iff {s : String} {n : Nat} :
    (sliceFrom? s.toList n).isSome = true ↔ String.Pos.Raw.IsValid s ⟨n⟩ := by
  rw [Option.isSome_iff_exists, String.Pos.Raw.isValid_iff_exists_append]
  constructor
  · rintro ⟨t, h⟩
    obtain ⟨u, hu, hn⟩ := sliceFrom?_eq_some_iff.mp h
    refine ⟨String.ofList u, String.ofList t, ?_, ?_⟩
    · rw [← String.ofList_append, ← hu, String.ofList_toList]
    · rw [String.Pos.Raw.ext_iff, String.byteIdx_rawEndPos, utf8ByteSize_ofList, hn]
  · rintro ⟨u, t, rfl, h⟩
    refine ⟨t.toList, sliceFrom?_eq_some_iff.mpr ⟨u.toList, String.toList_append, ?_⟩⟩
    rw [byteLength_toList, ← String.byteIdx_rawEndPos, ← h]

/-- Cutting `s` where `rest` begins leaves `rest`. -/
def SlicesTo (s rest : List Char) : Prop :=
  sliceFrom? s (byteLength s - byteLength rest) = some rest

theorem slicesTo_of_suffix {s rest : List Char} (h : rest <:+ s) : SlicesTo s rest := by
  obtain ⟨u, rfl⟩ := h
  rw [SlicesTo, byteLength_append, Nat.add_sub_cancel]
  exact sliceFrom?_append u rest

/-! ## Readers of numbers -/

theorem takeSign_suffix (s : List Char) : (takeSign s).2 <:+ s := by
  unfold takeSign
  split
  · exact List.suffix_cons _ _
  · exact List.suffix_cons _ _
  · exact List.suffix_refl _

theorem dropWord?_suffix {word s rest : List Char} (h : dropWord? word s = some rest) :
    rest <:+ s := by
  fun_induction dropWord? word s with
  | case1 s => cases h; exact List.suffix_refl _
  | case2 => cases h
  | case3 word c s ih => exact (ih h).trans (List.suffix_cons _ _)
  | case4 => cases h

end Text

namespace FloatLiteral

theorem readExponent_suffix (s : List Char) : (readExponent s).2 <:+ s := by
  have hexponent : ∀ {d : Char} {r : List Char},
      (Text.takeSign r).2.dropWhile Char.isDigit <:+ d :: r := fun {d r} =>
    (List.dropWhile_suffix _).trans ((Text.takeSign_suffix r).trans (List.suffix_cons d r))
  unfold readExponent
  split
  · dsimp only
    split
    · exact List.suffix_refl _
    · exact hexponent
  · dsimp only
    split
    · exact List.suffix_refl _
    · exact hexponent
  · exact List.suffix_refl _

theorem readFraction_suffix (s : List Char) : (readFraction s).2 <:+ s := by
  unfold readFraction
  split
  · exact (List.dropWhile_suffix _).trans (List.suffix_cons _ _)
  · exact List.suffix_refl _

theorem readDecimal?_suffix {s rest : List Char} {body : Body}
    (h : readDecimal? s = some (body, rest)) : rest <:+ s := by
  unfold readDecimal? at h
  dsimp only at h
  split at h
  · cases h
  · cases h
    exact (readExponent_suffix _).trans ((readFraction_suffix _).trans (List.dropWhile_suffix _))

theorem readBody?_suffix {s rest : List Char} {body : Body}
    (h : readBody? s = some (body, rest)) : rest <:+ s := by
  unfold readBody? at h
  split at h
  next hword => cases h; exact Text.dropWord?_suffix hword
  next =>
    split at h
    next hword => cases h; exact Text.dropWord?_suffix hword
    next =>
      split at h
      next hword => cases h; exact Text.dropWord?_suffix hword
      next => exact readDecimal?_suffix h

theorem read?_suffix {s rest : List Char} {literal : FloatLiteral}
    (h : read? s = some (literal, rest)) : rest <:+ s := by
  obtain ⟨⟨body, t⟩, hbody, hread⟩ := Option.map_eq_some_iff.mp h
  cases hread
  exact (readBody?_suffix hbody).trans (Text.takeSign_suffix s)

end FloatLiteral

/-- Every part of a number that is read off a text ends where the text can be cut.  The parts follow
each other, and each begins with the text that the one before it has left. -/
structure Text.ReadsInRange (s : List Char) : Prop where
  blanks : SlicesTo s (dropBlanks s)
  sign : SlicesTo s (takeSign s).2
  digits : SlicesTo s (s.dropWhile Char.isDigit)
  word : ∀ word rest, dropWord? word s = some rest → SlicesTo s rest
  fraction : SlicesTo s (FloatLiteral.readFraction s).2
  exponent : SlicesTo s (FloatLiteral.readExponent s).2
  /-- This is where the text of a literal ends as a whole. -/
  literal : ∀ literal rest, FloatLiteral.read? s = some (literal, rest) → SlicesTo s rest

/-- **The readers of numbers cut any text where it can be cut.** -/
theorem Text.readsInRange (s : List Char) : ReadsInRange s where
  blanks := slicesTo_of_suffix (List.dropWhile_suffix _)
  sign := slicesTo_of_suffix (takeSign_suffix s)
  digits := slicesTo_of_suffix (List.dropWhile_suffix _)
  word _ _ h := slicesTo_of_suffix (dropWord?_suffix h)
  fraction := slicesTo_of_suffix (FloatLiteral.readFraction_suffix s)
  exponent := slicesTo_of_suffix (FloatLiteral.readExponent_suffix s)
  literal _ _ h := slicesTo_of_suffix (FloatLiteral.read?_suffix h)

/-! ## Cursors -/

/-- **A cursor stands where its template can be cut**, and what lies ahead is what is left then. -/
theorem Cursor.sliceFrom?_position {text : List Char} {c : Cursor} (h : (start text).Reaches c) :
    Text.sliceFrom? text c.position = some c.rest := by
  obtain ⟨taken, hm⟩ := h
  refine Text.sliceFrom?_eq_some_iff.mpr ⟨taken, hm.rest, ?_⟩
  rw [hm.position, start, Nat.zero_add]

/-! ## Rendered texts -/

/-- **A rendered text is cut where it can be cut**, at the end of what is left of it. -/
theorem Conversion.exists_sliceFrom?_cut (k : Conversion) (a : Attributes) (padded : List Char) :
    ∃ dropped, padded = k.cut a padded ++ dropped ∧
      Text.sliceFrom? padded (byteLength (k.cut a padded)) = some dropped := by
  have hcut : k.cut a padded <+: padded := by
    cases k with
    | string | object =>
      rw [cut]
      split
      · exact List.prefix_refl _
      · exact List.take_prefix _ _
    | decimal | float => exact List.prefix_refl _
  obtain ⟨dropped, hdropped⟩ := hcut
  exact ⟨dropped, hdropped.symm, Text.sliceFrom?_eq_some_iff.mpr ⟨_, hdropped.symm, rfl⟩⟩

end PercentFormat
