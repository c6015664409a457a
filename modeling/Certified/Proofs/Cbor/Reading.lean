import Certified.Cbor.Reader
import Certified.Proofs.Steps

/-!
What a reader of items can return: an item in which nothing is nested, or an array or a map of items that
were read in it, or what was read in a tag.
-/

namespace Certified.Cbor

/-- The reader returns the value for some bytes. -/
def Reads {α : Type} (read : Reader α) (value : α) : Prop :=
  ∃ bytes rest, read bytes = .ok (value, rest)

section

variable {α : Type} {read : Reader α} {bytes rest : Bytes} {values : List α}

theorem reads_of_mem_readMany {count : Nat} (h : readMany read count bytes = .ok (values, rest)) :
    ∀ value ∈ values, Reads read value := by
  induction count generalizing bytes values with
  | zero =>
    cases h
    exact List.forall_mem_nil _
  | succ count ih =>
    obtain ⟨⟨first, next⟩, one, h⟩ := bind_eq_ok_iff.mp h
    obtain ⟨⟨others, last⟩, many, h⟩ := bind_eq_ok_iff.mp h
    cases h
    exact List.forall_mem_cons.mpr ⟨⟨bytes, next, one⟩, ih many⟩

theorem reads_of_mem_readToBreak {atEnd : ReadError} {fuel : Nat}
    (h : readToBreak atEnd read fuel bytes = .ok (values, rest)) :
    ∀ value ∈ values, Reads read value := by
  induction fuel generalizing bytes values with
  | zero => cases h
  | succ fuel ih =>
    cases bytes with
    | nil => cases h
    | cons b bytes =>
      rw [readToBreak] at h
      split at h
      · cases h
        exact List.forall_mem_nil _
      · obtain ⟨⟨first, next⟩, one, h⟩ := bind_eq_ok_iff.mp h
        obtain ⟨⟨others, last⟩, many, h⟩ := bind_eq_ok_iff.mp h
        cases h
        exact List.forall_mem_cons.mpr ⟨⟨b :: bytes, next, one⟩, ih many⟩

end

theorem reads_of_readEntry {read : Reader Item} {entry : Item × Item}
    (h : Reads (readItemWith.readEntry read) entry) : Reads read entry.1 ∧ Reads read entry.2 := by
  obtain ⟨bytes, rest, h⟩ := h
  obtain ⟨⟨key, next⟩, first, h⟩ := bind_eq_ok_iff.mp h
  obtain ⟨⟨value, last⟩, second, h⟩ := bind_eq_ok_iff.mp h
  cases h
  exact ⟨⟨bytes, next, first⟩, ⟨next, rest, second⟩⟩

/-- Nothing is nested in the item. -/
def Item.Flat : Item → Prop
  | .array _ | .map _ | .tag _ _ => False
  | _ => True

/-- What an item is made of whose nested items are read by `nested`. A tag leaves nothing but the item in
it. -/
inductive MadeOf (nested : Option (Reader Item)) : Item → Prop where
  | flat {item : Item} : item.Flat → MadeOf nested item
  | array {read : Reader Item} {items : List Item} :
    nested = some read → (∀ item ∈ items, Reads read item) → MadeOf nested (.array items)
  | map {read : Reader Item} {entries : List (Item × Item)} :
    nested = some read → (∀ entry ∈ entries, Reads read entry.1 ∧ Reads read entry.2) →
      MadeOf nested (.map entries)
  | tagged {read : Reader Item} {item : Item} :
    nested = some read → Reads read item → MadeOf nested item

theorem readText_flat {total : Nat} {bytes after rest : Bytes} {item : Item}
    (h : readText total bytes after = .ok (item, rest)) : item.Flat := by
  rw [readText] at h
  split at h
  · cases h
    trivial
  · cases h

theorem readSimple_flat {total info : Nat} {bytes rest : Bytes} {item : Item}
    (h : readSimple total info bytes = .ok (item, rest)) : item.Flat := by
  unfold readSimple at h
  split at h
  case h_5 | h_6 | h_7 =>
    obtain ⟨⟨value, after⟩, _, h⟩ := bind_eq_ok_iff.mp h
    cases h
    trivial
  case h_8 | h_9 => cases h
  all_goals
    cases h
    trivial

theorem exists_nested {total : Nat} {nested : Option (Reader Item)} {after : Bytes} {α : Type}
    {f : Reader Item → Except ReadError α} {result : α}
    (h : ((match nested with
      | some read => Except.ok read
      | none => fail total .tooDeep after) >>= f) = .ok result) :
    ∃ read, nested = some read ∧ f read = .ok result := by
  cases nested with
  | none => cases h
  | some read => exact ⟨read, rfl, h⟩

/-- Nothing is nested in an item, or its initial byte is that of an array, a map or a tag. The cases are those
of the initial byte. -/
theorem flat_or_madeOf {total : Nat} {nested : Option (Reader Item)} {b : UInt8} {bytes rest : Bytes}
    {item : Item} (h : readItemWith total nested (b :: bytes) = .ok (item, rest)) :
    item.Flat ∨ (4 ≤ b.toNat / 32 ∧ b.toNat / 32 ≤ 6) ∧ MadeOf nested item := by
  simp only [readItemWith] at h
  split at h
  · exact .inl (readSimple_flat h)
  obtain ⟨⟨argument, after⟩, _, h⟩ := bind_eq_ok_iff.mp h
  simp only at h
  split at h
  case h_1 | h_2 =>
    cases h
    exact .inl trivial
  case h_3 | h_4 =>
    obtain ⟨_, _, h⟩ := bind_eq_ok_iff.mp h
    cases h
    exact .inl trivial
  case h_5 =>
    split at h
    · cases h
    · obtain ⟨_, _, h⟩ := bind_eq_ok_iff.mp h
      exact .inl (readText_flat h)
  case h_6 =>
    obtain ⟨_, _, h⟩ := bind_eq_ok_iff.mp h
    exact .inl (readText_flat h)
  case h_7 =>
    obtain ⟨read, here, h⟩ := exists_nested h
    obtain ⟨⟨items, next⟩, many, h⟩ := bind_eq_ok_iff.mp h
    cases h
    exact .inr ⟨by omega, .array here (reads_of_mem_readMany many)⟩
  case h_8 =>
    obtain ⟨read, here, h⟩ := exists_nested h
    obtain ⟨⟨items, next⟩, many, h⟩ := bind_eq_ok_iff.mp h
    cases h
    exact .inr ⟨by omega, .array here (reads_of_mem_readToBreak many)⟩
  case h_9 =>
    obtain ⟨read, here, h⟩ := exists_nested h
    obtain ⟨⟨entries, next⟩, many, h⟩ := bind_eq_ok_iff.mp h
    cases h
    exact .inr ⟨by omega, .map here fun entry mem =>
      reads_of_readEntry (reads_of_mem_readMany many entry mem)⟩
  case h_10 =>
    obtain ⟨read, here, h⟩ := exists_nested h
    obtain ⟨⟨entries, next⟩, many, h⟩ := bind_eq_ok_iff.mp h
    cases h
    exact .inr ⟨by omega, .map here fun entry mem =>
      reads_of_readEntry (reads_of_mem_readToBreak many entry mem)⟩
  case h_11 =>
    obtain ⟨read, here, h⟩ := exists_nested h
    exact .inr ⟨by omega, .tagged here ⟨after, rest, h⟩⟩
  case h_12 => cases h

/-- What a reader of items can return. -/
theorem madeOf_of_readItemWith {total : Nat} {nested : Option (Reader Item)} {bytes rest : Bytes}
    {item : Item} (h : readItemWith total nested bytes = .ok (item, rest)) : MadeOf nested item := by
  cases bytes with
  | nil => cases h
  | cons b bytes =>
    rcases flat_or_madeOf h with flat | ⟨_, made⟩
    · exact .flat flat
    · exact made

end Certified.Cbor
