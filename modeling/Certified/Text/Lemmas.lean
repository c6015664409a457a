import Mathlib
import Certified.Text.Blank
import Certified.Text.Utf8

/-!
UTF-8 reading is exact: a byte string spells a text exactly if it is the text's bytes. Trimming takes the
blanks off a text, and nothing else.
-/

namespace Certified

namespace Bytes

theorem ofText_ofList (chars : List Char) :
    ofText (String.ofList chars) = chars.flatMap String.utf8EncodeChar := by
  rw [ofText, String.toList_ofList]

/-- A text has at least one byte for each character. -/
theorem length_le_ofText (chars : List Char) :
    chars.length ≤ (ofText (String.ofList chars)).length := by
  rw [ofText_ofList]
  induction chars with
  | nil => exact Nat.le_refl 0
  | cons c chars ih =>
    have size : (String.utf8EncodeChar c).length = c.utf8Size := String.length_utf8EncodeChar c
    have pos : 0 < c.utf8Size := c.utf8Size_pos
    rw [List.flatMap_cons, List.length_append, List.length_cons]
    omega

end Bytes

namespace Utf8

theorem split_nil : split [] = ([], []) := by
  rw [split]
  split
  · rfl
  · rename_i c h
    exact absurd (length_pos_of_first? h) (by simp)

theorem split_encoded (chars : List Char) :
    split (chars.flatMap String.utf8EncodeChar) = (chars, []) := by
  induction chars with
  | nil => exact split_nil
  | cons c chars ih =>
    rw [List.flatMap_cons, split]
    split
    · rename_i h
      rw [first?_append] at h
      cases h
    · rename_i c' h
      rw [first?_append] at h
      cases h
      have hdrop : (String.utf8EncodeChar c ++ chars.flatMap String.utf8EncodeChar).drop c.utf8Size =
          chars.flatMap String.utf8EncodeChar :=
        List.drop_left' (by simp)
      rw [hdrop, ih]

/-- A character starts a byte string only with all its bytes. -/
theorem eq_append_of_first? {bytes : Bytes} {c : Char} (h : first? bytes = some c) :
    bytes = String.utf8EncodeChar c ++ bytes.drop c.utf8Size := by
  have taken := congrArg (fun bytes : ByteArray => bytes.data.toList)
    (String.toByteArray_utf8EncodeChar_of_utf8DecodeChar?_eq_some h)
  simp only [List.data_toByteArray, List.toList_toArray, ByteArray.data_extract, Array.toList_extract,
    List.extract_eq_take_drop, Nat.sub_zero, List.drop_zero, List.take_take,
    Nat.min_eq_left c.utf8Size_le_four] at taken
  rw [taken, List.take_append_drop]

theorem eq_append_of_split (bytes : Bytes) :
    bytes = (split bytes).1.flatMap String.utf8EncodeChar ++ (split bytes).2 := by
  fun_induction split bytes with
  | case1 bytes none => rfl
  | case2 bytes c some chars rest split ih =>
    rw [split] at ih
    rw [List.flatMap_cons, List.append_assoc, ← ih]
    exact eq_append_of_first? some

theorem decode?_eq_some_iff {bytes : Bytes} {text : String} :
    decode? bytes = some text ↔ bytes = Bytes.ofText text := by
  constructor
  · intro h
    have whole := eq_append_of_split bytes
    unfold decode? at h
    split at h
    · rename_i chars parts
      cases h
      rw [parts, List.append_nil] at whole
      rw [whole, Bytes.ofText_ofList]
    · cases h
  · rintro rfl
    rw [decode?, Bytes.ofText, split_encoded]
    exact congrArg some String.ofList_toList

end Utf8

theorem Bytes.ofText_injective : Function.Injective Bytes.ofText := by
  intro text other same
  have read : Utf8.decode? (Bytes.ofText text) = some text := Utf8.decode?_eq_some_iff.mpr rfl
  rw [same, Utf8.decode?_eq_some_iff.mpr rfl] at read
  exact (Option.some.inj read).symm

namespace Text.Blank

theorem dropWhile_of_head {chars : List Char} (occupied : chars ≠ [])
    (first : ¬ isBlank (chars.head occupied)) : chars.dropWhile isBlank = chars := by
  obtain ⟨c, rest, rfl⟩ := List.exists_cons_of_ne_nil occupied
  exact List.dropWhile_cons_of_neg first

/-- Blanks around a text are what trimming takes off. -/
theorem trimChars_append {before core after : List Char} (leading : ∀ c ∈ before, isBlank c)
    (trailing : ∀ c ∈ after, isBlank c) (occupied : core ≠ []) (first : ¬ isBlank (core.head occupied))
    (last : ¬ isBlank (core.getLast occupied)) : trimChars (before ++ core ++ after) = core := by
  have front : (before ++ core ++ after).dropWhile isBlank = core ++ after := by
    rw [List.append_assoc, List.dropWhile_append_of_pos leading]
    refine dropWhile_of_head (List.append_ne_nil_of_left_ne_nil occupied after) ?_
    rwa [List.head_append_of_ne_nil occupied]
  have back : (core ++ after).reverse.dropWhile isBlank = core.reverse := by
    rw [List.reverse_append,
      List.dropWhile_append_of_pos fun c mem => trailing c (List.mem_reverse.mp mem)]
    refine dropWhile_of_head (mt List.reverse_eq_nil_iff.mp occupied) ?_
    rwa [List.head_reverse]
  rw [trimChars, front, back, List.reverse_reverse]

/-- A text that begins with no blank keeps its first character. -/
theorem exists_trimChars_cons {c : Char} (first : ¬ isBlank c) (rest : List Char) :
    ∃ kept, trimChars (c :: rest) = c :: kept := by
  rw [trimChars, List.dropWhile_cons_of_neg first, List.reverse_cons, List.dropWhile_append]
  split
  · rw [List.dropWhile_cons_of_neg first]
    exact ⟨[], rfl⟩
  · rw [List.reverse_append]
    exact ⟨_, rfl⟩

end Text.Blank
end Certified
