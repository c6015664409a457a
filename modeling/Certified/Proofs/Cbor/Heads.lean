import Certified.Proofs.Cbor.Reading

/-!
What the initial byte says of an item: an array or a map is read only behind the initial byte of one or of a
tag, and a count in the initial byte is the count of what was read.
-/

namespace Certified.Cbor

theorem length_of_readMany {α : Type} {read : Reader α} {count : Nat} {bytes rest : Bytes} {values : List α}
    (h : readMany read count bytes = .ok (values, rest)) : values.length = count := by
  induction count generalizing bytes values with
  | zero =>
    cases h
    rfl
  | succ count ih =>
    obtain ⟨⟨first, next⟩, _, h⟩ := bind_eq_ok_iff.mp h
    obtain ⟨⟨others, last⟩, many, h⟩ := bind_eq_ok_iff.mp h
    cases h
    rw [List.length_cons, ih many]

section

variable {total depth : Nat} {b : UInt8} {bytes rest : Bytes} {item : Item}

/-- Items are read with nested items or without any. -/
theorem exists_readItemWith (total depth : Nat) :
    ∃ nested, readItem total depth = readItemWith total nested := by
  cases depth with
  | zero => exact ⟨none, rfl⟩
  | succ depth => exact ⟨some (readItem total depth), rfl⟩

/-- Behind any other initial byte than that of an array, a map or a tag nothing is nested. -/
theorem flat_of_readItem (other : b.toNat / 32 < 4 ∨ b.toNat / 32 = 7)
    (h : readItem total depth (b :: bytes) = .ok (item, rest)) : item.Flat := by
  obtain ⟨nested, same⟩ := exists_readItemWith total depth
  rw [same] at h
  rcases flat_or_madeOf h with flat | ⟨major, _⟩
  · exact flat
  · omega

/-- The count of a short array stands in its initial byte. -/
theorem exists_array_of_readItem {count : Nat} (short : count < 24) (initial : b.toNat = 128 + count)
    (h : readItem total depth (b :: bytes) = .ok (item, rest)) :
    ∃ items, item = .array items ∧ items.length = count := by
  obtain ⟨nested, same⟩ := exists_readItemWith total depth
  have major : b.toNat / 32 = 4 := by omega
  have info : b.toNat % 32 = count := by omega
  simp only [same, readItemWith, major, info, readArgument, short, if_true, ok_bind] at h
  obtain ⟨read, _, h⟩ := exists_nested h
  obtain ⟨⟨items, next⟩, many, h⟩ := bind_eq_ok_iff.mp h
  cases h
  exact ⟨items, rfl, length_of_readMany many⟩

/-- The count of a short map stands in its initial byte. -/
theorem exists_map_of_readItem {count : Nat} (short : count < 24) (initial : b.toNat = 160 + count)
    (h : readItem total depth (b :: bytes) = .ok (item, rest)) :
    ∃ entries, item = .map entries ∧ entries.length = count := by
  obtain ⟨nested, same⟩ := exists_readItemWith total depth
  have major : b.toNat / 32 = 5 := by omega
  have info : b.toNat % 32 = count := by omega
  simp only [same, readItemWith, major, info, readArgument, short, if_true, ok_bind] at h
  obtain ⟨read, _, h⟩ := exists_nested h
  obtain ⟨⟨entries, next⟩, many, h⟩ := bind_eq_ok_iff.mp h
  cases h
  exact ⟨entries, rfl, length_of_readMany many⟩

/-- A short tag leaves the item behind it. -/
theorem readItem_of_tag {number : Nat} (short : number < 24) (initial : b.toNat = 192 + number)
    (h : readItem total depth (b :: bytes) = .ok (item, rest)) :
    ∃ depth, readItem total depth bytes = .ok (item, rest) := by
  have major : b.toNat / 32 = 6 := by omega
  have info : b.toNat % 32 = number := by omega
  cases depth with
  | zero =>
    simp [readItem, readItemWith, major, info, readArgument, short, fail] at h
  | succ depth =>
    refine ⟨depth, ?_⟩
    simpa [readItem, readItemWith, major, info, readArgument, short] using h

end

end Certified.Cbor
