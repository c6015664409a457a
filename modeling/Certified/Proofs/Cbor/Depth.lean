import Certified.Proofs.Cbor.Reading
import Certified.Proofs.Cbor.RoundTrip
import Certified.Proofs.Cbor.Tags

/-!
How deep a reader follows. What is read is nested no deeper than the limit, and where more is nested in an
item than that, what is written for it is refused for its depth and for nothing else.
-/

namespace Certified.Cbor

open Item

theorem Item.Flat.nesting_eq {item : Item} (h : item.Flat) : item.nesting = 0 := by
  cases item with
  | array items => exact h.elim
  | map entries => exact h.elim
  | tag number item => exact h.elim
  | _ => rfl

theorem nestingAll_le {items : List Item} {depth : Nat} (h : ∀ item ∈ items, item.nesting ≤ depth) :
    nestingAll items ≤ depth := by
  induction items with
  | nil => exact Nat.zero_le depth
  | cons item items ih =>
    obtain ⟨first, others⟩ := List.forall_mem_cons.mp h
    exact Nat.max_le.mpr ⟨first, ih others⟩

theorem nestingEntries_le {entries : List (Item × Item)} {depth : Nat}
    (h : ∀ entry ∈ entries, entry.1.nesting ≤ depth ∧ entry.2.nesting ≤ depth) :
    nestingEntries entries ≤ depth := by
  induction entries with
  | nil => exact Nat.zero_le depth
  | cons entry entries ih =>
    obtain ⟨first, others⟩ := List.forall_mem_cons.mp h
    exact Nat.max_le.mpr ⟨Nat.max_le.mpr first, ih others⟩

/-- What is read is nested no deeper than the reader follows. -/
theorem nesting_le_of_reads {total depth : Nat} {item : Item} (h : Reads (readItem total depth) item) :
    item.nesting ≤ depth := by
  induction depth generalizing item with
  | zero =>
    obtain ⟨bytes, rest, h⟩ := h
    cases madeOf_of_readItemWith h with
    | flat flat => exact Nat.le_of_eq flat.nesting_eq
    | array here | map here | tagged here => cases here
  | succ depth ih =>
    obtain ⟨bytes, rest, h⟩ := h
    cases madeOf_of_readItemWith h with
    | flat flat =>
      rw [flat.nesting_eq]
      exact Nat.zero_le _
    | array here parts =>
      cases here
      exact Nat.succ_le_succ (nestingAll_le fun item mem => ih (parts item mem))
    | map here parts =>
      cases here
      refine Nat.succ_le_succ (nestingEntries_le fun entry mem => ?_)
      exact ⟨ih (parts entry mem).1, ih (parts entry mem).2⟩
    | tagged here inner =>
      cases here
      exact Nat.le_succ_of_le (ih inner)

theorem nesting_le_of_decode {bytes : Bytes} {item : Item} (h : decode bytes = .ok item) :
    item.nesting ≤ depthLimit := by
  obtain ⟨⟨read, rest⟩, found, h⟩ := bind_eq_ok_iff.mp h
  have reads : Reads (readItem _ depthLimit) read := ⟨_, rest, found⟩
  cases rest with
  | nil =>
    cases h
    exact nesting_le_of_reads reads
  | cons b rest => cases h

theorem nesting_untag_le (item : Item) : item.untag.nesting ≤ item.nesting := by
  fun_induction untag item with
  | case1 number item ih => exact Nat.le_succ_of_le ih
  | case2 item untagged => exact Nat.le_refl _

mutual

theorem nesting_stripTags_le : (item : Item) → item.stripTags.nesting ≤ item.nesting
  | .null | .bool _ | .integer _ | .float _ | .bytes _ | .text _ => Nat.le_refl 0
  | .array items => Nat.succ_le_succ (nestingAll_stripTags_le items)
  | .map entries => Nat.succ_le_succ (nestingEntries_stripTags_le entries)
  | .tag _ item => Nat.le_succ_of_le (nesting_stripTags_le item)

theorem nestingAll_stripTags_le : (items : List Item) →
    nestingAll (stripTagsAll items) ≤ nestingAll items
  | [] => Nat.le_refl 0
  | item :: items => max_le_max (nesting_stripTags_le item) (nestingAll_stripTags_le items)

theorem nestingEntries_stripTags_le : (entries : List (Item × Item)) →
    nestingEntries (stripTagsEntries entries) ≤ nestingEntries entries
  | [] => Nat.le_refl 0
  | (key, value) :: entries =>
    max_le_max (max_le_max (nesting_stripTags_le key) (nesting_stripTags_le value))
      (nestingEntries_stripTags_le entries)

end

theorem nesting_le_of_mem {entries : List (Item × Item)} {key value : Item}
    (mem : (key, value) ∈ entries) : value.nesting ≤ nestingEntries entries := by
  induction entries with
  | nil => cases mem
  | cons entry entries ih =>
    rcases List.mem_cons.mp mem with rfl | mem
    · exact le_max_of_le_left (le_max_right _ _)
    · exact le_max_of_le_right (ih mem)

/-- The limit of the depth, and nothing else, is in the way. -/
def RefusedForDepth {α : Type} (result : Except ReadError α) : Prop :=
  ∃ offset, result = .error ⟨.tooDeep, offset⟩

theorem RefusedForDepth.bind {α β : Type} {result : Except ReadError α} (h : RefusedForDepth result)
    (f : α → Except ReadError β) : RefusedForDepth (result >>= f) := by
  obtain ⟨offset, rfl⟩ := h
  exact ⟨offset, rfl⟩

section

variable {total n : Nat} {head body : Bytes} {read : Reader Item}

theorem readItemWith_none {major : Nat} (h : IsHead major n head) (opens : 4 ≤ major ∧ major ≤ 6) :
    RefusedForDepth (readItemWith total none (head ++ body)) := by
  obtain ⟨b, digits, rfl, rfl, argument⟩ := h
  refine ⟨total - body.length, ?_⟩
  have : b.toNat / 32 = 4 ∨ b.toNat / 32 = 5 ∨ b.toNat / 32 = 6 := by omega
  rcases this with major | major | major
  all_goals simp [readItemWith, major, argument, fail]

theorem refused_array (h : IsHead 4 n head) (deep : RefusedForDepth (readMany read n body)) :
    RefusedForDepth (readItemWith total (some read) (head ++ body)) := by
  obtain ⟨b, digits, rfl, major, argument⟩ := h
  obtain ⟨offset, deep⟩ := deep
  exact ⟨offset, by simp [readItemWith, major, argument, deep]⟩

theorem refused_map (h : IsHead 5 n head)
    (deep : RefusedForDepth (readMany (readItemWith.readEntry read) n body)) :
    RefusedForDepth (readItemWith total (some read) (head ++ body)) := by
  obtain ⟨b, digits, rfl, major, argument⟩ := h
  obtain ⟨offset, deep⟩ := deep
  exact ⟨offset, by simp [readItemWith, major, argument, deep]⟩

end

mutual

/-- Where more is nested in an item than the reader follows, what is written for it is refused. The
recursion is on the item; what is written before the place where it is too deep reads back. -/
theorem refused_write {total : Nat} (bounded : total < UInt64.size) {depth : Nat} :
    (item : Item) → item.Writable → depth < item.nesting → (rest : Bytes) →
      RefusedForDepth (readItem total depth (write item ++ rest))
  | .null, _, deep, _ | .bool _, _, deep, _ | .integer _, _, deep, _ | .float _, _, deep, _
  | .bytes _, _, deep, _ | .text _, _, deep, _ => absurd deep (Nat.not_lt_zero depth)
  | .array items, ⟨short, writable⟩, deep, rest => by
    have head := isHead_writeHead 4 (by omega) short
    rw [write, List.append_assoc]
    cases depth with
    | zero => exact readItemWith_none head (by omega)
    | succ depth =>
      exact refused_array head
        (refused_writeAll bounded items writable (Nat.lt_of_succ_lt_succ deep) rest)
  | .map entries, ⟨short, writable⟩, deep, rest => by
    have head := isHead_writeHead 5 (by omega) short
    rw [write, List.append_assoc]
    cases depth with
    | zero => exact readItemWith_none head (by omega)
    | succ depth =>
      exact refused_map head
        (refused_writeEntries bounded entries writable (Nat.lt_of_succ_lt_succ deep) rest)
  | .tag number item, ⟨short, writable⟩, deep, rest => by
    have head := isHead_writeHead 6 (by omega) short
    rw [write, List.append_assoc]
    cases depth with
    | zero => exact readItemWith_none head (by omega)
    | succ depth =>
      rw [readItem, readItemWith_tag head]
      exact refused_write bounded item writable (Nat.lt_of_succ_lt_succ deep) rest

theorem refused_writeAll {total : Nat} (bounded : total < UInt64.size) {depth : Nat} :
    (items : List Item) → WritableAll items → depth < nestingAll items → (rest : Bytes) →
      RefusedForDepth (readMany (readItem total depth) items.length (writeAll items ++ rest))
  | [], _, deep, _ => absurd deep (Nat.not_lt_zero depth)
  | item :: items, ⟨writable, others⟩, deep, rest => by
    rw [List.length_cons, readMany, writeAll, List.append_assoc]
    by_cases first : depth < item.nesting
    · exact (refused_write bounded item writable first _).bind _
    · have later : depth < nestingAll items := (lt_max_iff.mp deep).resolve_left first
      rw [readItem_write_append bounded item writable (Nat.le_of_not_lt first), ok_bind]
      exact (refused_writeAll bounded items others later rest).bind _

theorem refused_writeEntries {total : Nat} (bounded : total < UInt64.size) {depth : Nat} :
    (entries : List (Item × Item)) → WritableEntries entries → depth < nestingEntries entries →
      (rest : Bytes) →
      RefusedForDepth (readMany (readItemWith.readEntry (readItem total depth)) entries.length
        (writeEntries entries ++ rest))
  | [], _, deep, _ => absurd deep (Nat.not_lt_zero depth)
  | (key, value) :: entries, ⟨writableKey, writableValue, others⟩, deep, rest => by
    rw [List.length_cons, readMany, writeEntries, List.append_assoc, List.append_assoc,
      readItemWith.readEntry]
    by_cases inKey : depth < key.nesting
    · exact ((refused_write bounded key writableKey inKey _).bind _).bind _
    simp only [readItem_write_append bounded key writableKey (Nat.le_of_not_lt inKey), ok_bind]
    by_cases inValue : depth < value.nesting
    · exact ((refused_write bounded value writableValue inValue _).bind _).bind _
    simp only [readItem_write_append bounded value writableValue (Nat.le_of_not_lt inValue), ok_bind]
    have later : depth < nestingEntries entries := by
      rcases lt_max_iff.mp deep with first | later
      · rcases lt_max_iff.mp first with first | first
        · exact absurd first inKey
        · exact absurd first inValue
      · exact later
    exact (refused_writeEntries bounded entries others later rest).bind _

end

theorem refused_encode {item : Item} (short : (write item).length < UInt64.size)
    (writable : item.Writable) (deep : depthLimit < item.nesting) :
    RefusedForDepth (decode (encode item)) := by
  have refused := refused_write short item writable deep []
  rw [List.append_nil] at refused
  have mark : selfDescribed.isPrefixOf (encode item) = true := by
    simp [encode]
  have body : (encode item).drop selfDescribed.length = write item := List.drop_left
  simp only [decode, mark, if_true, body]
  exact refused.bind _

end Certified.Cbor
