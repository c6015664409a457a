import Certified.Bytes

/-!
UTF-8 read from byte strings. Reading stops at the first byte that no character starts, and what
is left tells how long the valid part was.
-/

namespace Certified.Utf8

/-- The character that starts a byte string. -/
def first? (bytes : Bytes) : Option Char :=
  (bytes.take 4).toByteArray.utf8DecodeChar? 0

theorem first?_append (c : Char) (rest : Bytes) :
    first? (String.utf8EncodeChar c ++ rest) = some c := by
  have hlen : (String.utf8EncodeChar c).length ≤ 4 := by
    simpa using c.utf8Size_le_four
  simp only [first?, List.take_append, List.take_of_length_le hlen, List.toByteArray_append]
  exact ByteArray.utf8DecodeChar?_utf8EncodeChar_append

theorem length_pos_of_first? {bytes : Bytes} {c : Char} (h : first? bytes = some c) :
    0 < bytes.length := by
  have hsize := ByteArray.lt_size_of_isSome_utf8DecodeChar? (Option.isSome_of_eq_some h)
  simp only [List.size_toByteArray, List.length_take] at hsize
  omega

/-- The characters of the longest valid start of a byte string, and the bytes after it. -/
def split (bytes : Bytes) : List Char × Bytes :=
  match _ : first? bytes with
  | none => ([], bytes)
  | some c =>
    let (chars, rest) := split (bytes.drop c.utf8Size)
    (c :: chars, rest)
termination_by bytes.length
decreasing_by
  have := length_pos_of_first? ‹first? bytes = some c›
  have := c.utf8Size_pos
  simp only [List.length_drop]
  omega

/-- The text that a byte string spells. -/
def decode? (bytes : Bytes) : Option String :=
  match split bytes with
  | (chars, []) => some (String.ofList chars)
  | _ => none

end Certified.Utf8
