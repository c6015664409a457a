import Certified.Bytes.Lemmas
import Certified.Cbor.Reader
import Certified.Proofs.Steps
import Certified.Text.Lemmas

/-!
What is written for an item reads back as the item without its tags, whatever follows it, as long as its
numbers and lengths fit the wire and no more is nested in it than a reader follows.
-/

namespace Certified

namespace Cbor

open Item

namespace Item

mutual

/-- The numbers, lengths and counts fit the wire. -/
def Writable : Item → Prop
  | .integer value => -(UInt64.size : Int) ≤ value ∧ value < (UInt64.size : Int)
  | .float value => value.length = 2 ∨ value.length = 4 ∨ value.length = 8
  | .bytes value => value.length < UInt64.size
  | .text value => (Bytes.ofText value).length < UInt64.size
  | .array items => items.length < UInt64.size ∧ WritableAll items
  | .map entries => entries.length < UInt64.size ∧ WritableEntries entries
  | .tag number item => number < UInt64.size ∧ item.Writable
  | .null | .bool _ => True

def WritableAll : List Item → Prop
  | [] => True
  | item :: rest => item.Writable ∧ WritableAll rest

def WritableEntries : List (Item × Item) → Prop
  | [] => True
  | (key, value) :: rest => key.Writable ∧ value.Writable ∧ WritableEntries rest

end

mutual

/-- The number of arrays, maps and tags that are open at once. -/
def nesting : Item → Nat
  | .array items => nestingAll items + 1
  | .map entries => nestingEntries entries + 1
  | .tag _ item => item.nesting + 1
  | _ => 0

def nestingAll : List Item → Nat
  | [] => 0
  | item :: rest => max item.nesting (nestingAll rest)

def nestingEntries : List (Item × Item) → Nat
  | [] => 0
  | (key, value) :: rest => max (max key.nesting value.nesting) (nestingEntries rest)

end

end Item

theorem readBytes_append (total : Nat) (bytes rest : Bytes) :
    readBytes total bytes.length (bytes ++ rest) = .ok (bytes, rest) := by
  simp [readBytes]

/-- An argument in `width` bytes, as the low bits `info` announce it. -/
theorem readArgument_ofNatBE {info width n : Nat} (total : Nat) (rest : Bytes) (hinfo : 24 ≤ info)
    (hwidth : info < 28) (h : width = 1 <<< (info - 24)) (hn : n < 256 ^ width) :
    readArgument total info (Bytes.ofNatBE width n ++ rest) = .ok (some n, rest) := by
  have hread := readBytes_append total (Bytes.ofNatBE width n) rest
  rw [Bytes.length_ofNatBE, h] at hread
  rw [readArgument, if_neg (by omega), if_pos hwidth, h, hread, ← h]
  simp [Bytes.toNatBE_ofNatBE, Nat.mod_eq_of_lt hn]

/-- An initial byte that holds the major type, and bytes from which the argument is read. -/
def IsHead (major n : Nat) (head : Bytes) : Prop :=
  ∃ b digits, head = b :: digits ∧ b.toNat / 32 = major ∧
    ∀ total rest, readArgument total (b.toNat % 32) (digits ++ rest) = .ok (some n, rest)

theorem isHead_of_readArgument {major n info : Nat} {digits : Bytes} (hmajor : major < 8)
    (hinfo : info < 32)
    (h : ∀ total rest, readArgument total info (digits ++ rest) = .ok (some n, rest)) :
    IsHead major n (UInt8.ofNat (32 * major + info) :: digits) := by
  have value : (UInt8.ofNat (32 * major + info)).toNat = 32 * major + info := by
    rw [UInt8.toNat_ofNat']
    omega
  refine ⟨_, digits, rfl, ?_, fun total rest => ?_⟩
  · rw [value]
    omega
  · rw [value, Nat.mul_add_mod, Nat.mod_eq_of_lt hinfo, h]

theorem isHead_writeHead (major : Nat) {n : Nat} (hmajor : major < 8) (hn : n < UInt64.size) :
    IsHead major n (writeHead major n) := by
  have wide {info width : Nat} (hinfo : 24 ≤ info ∧ info < 28) (h : width = 1 <<< (info - 24))
      (small : n < 256 ^ width) :
      IsHead major n (UInt8.ofNat (32 * major + info) :: Bytes.ofNatBE width n) :=
    isHead_of_readArgument hmajor (by omega) fun total rest =>
      readArgument_ofNatBE total rest hinfo.1 hinfo.2 h small
  -- The argument is in the initial byte, or in 1, 2, 4 or 8 bytes after it.
  unfold writeHead
  dsimp only
  split
  · rename_i small
    refine isHead_of_readArgument hmajor (by omega) fun total rest => ?_
    rw [List.nil_append, readArgument, if_pos small]
  split
  · rename_i small
    exact wide (by omega) rfl small
  split
  · rename_i small
    exact wide (by omega) rfl small
  split
  · rename_i small
    exact wide (by omega) rfl small
  · exact wide (by omega) rfl hn

theorem length_writeHead_pos (major n : Nat) : 0 < (writeHead major n).length := by
  unfold writeHead
  dsimp only
  split
  · exact Nat.one_pos
  all_goals
    repeat' split
    all_goals exact Nat.succ_pos _

section

variable {total : Nat} {nested : Option (Reader Item)} {head rest : Bytes} {n : Nat}

theorem readItemWith_unsigned (h : IsHead 0 n head) :
    readItemWith total nested (head ++ rest) = .ok (.integer n, rest) := by
  obtain ⟨b, digits, rfl, major, argument⟩ := h
  simp [readItemWith, major, argument]

theorem readItemWith_negative (h : IsHead 1 n head) :
    readItemWith total nested (head ++ rest) = .ok (.integer (-1 - n), rest) := by
  obtain ⟨b, digits, rfl, major, argument⟩ := h
  simp [readItemWith, major, argument]

theorem readItemWith_bytes {value : Bytes} (h : IsHead 2 value.length head) :
    readItemWith total nested (head ++ (value ++ rest)) = .ok (.bytes value, rest) := by
  obtain ⟨b, digits, rfl, major, argument⟩ := h
  simp [readItemWith, major, argument, readBytes_append]

theorem readItemWith_text {value : String} (h : IsHead 3 (Bytes.ofText value).length head)
    (bounded : total < UInt64.size) (short : (Bytes.ofText value).length < UInt64.size) :
    readItemWith total nested (head ++ (Bytes.ofText value ++ rest)) = .ok (.text value, rest) := by
  obtain ⟨b, digits, rfl, major, argument⟩ := h
  have inRange : ¬ UInt64.size ≤ total - ((Bytes.ofText value).length + rest.length) +
      (Bytes.ofText value).length := by
    omega
  have text : readText total (Bytes.ofText value) rest = .ok (.text value, rest) := by
    simp [readText, Bytes.ofText, Utf8.split_encoded]
  simp [readItemWith, major, argument, inRange, readBytes_append, text]

theorem readItemWith_array {read : Reader Item} {items : List Item} {body : Bytes}
    (h : IsHead 4 n head) (hread : readMany read n body = .ok (items, rest)) :
    readItemWith total (some read) (head ++ body) = .ok (.array items, rest) := by
  obtain ⟨b, digits, rfl, major, argument⟩ := h
  simp [readItemWith, major, argument, hread]

theorem readItemWith_map {read : Reader Item} {entries : List (Item × Item)} {body : Bytes}
    (h : IsHead 5 n head)
    (hread : readMany (readItemWith.readEntry read) n body = .ok (entries, rest)) :
    readItemWith total (some read) (head ++ body) = .ok (.map entries, rest) := by
  obtain ⟨b, digits, rfl, major, argument⟩ := h
  simp [readItemWith, major, argument, hread]

theorem readItemWith_tag {read : Reader Item} {body : Bytes} (h : IsHead 6 n head) :
    readItemWith total (some read) (head ++ body) = read body := by
  obtain ⟨b, digits, rfl, major, argument⟩ := h
  simp [readItemWith, major, argument]

theorem readItemWith_float {value : Bytes}
    (h : value.length = 2 ∨ value.length = 4 ∨ value.length = 8) :
    readItemWith total nested (write (.float value) ++ rest) = .ok (.float value, rest) := by
  rcases h with h | h | h
  all_goals
    have hread := readBytes_append total value rest
    rw [h] at hread
    simp [write, h, readItemWith, readSimple, hread]

end

mutual

/-- The recursion is on the item; each array, map and tag takes one level of the reader's depth. -/
theorem readItem_write_append {total : Nat} (bounded : total < UInt64.size) {depth : Nat} :
    (item : Item) → item.Writable → item.nesting ≤ depth → (rest : Bytes) →
      readItem total depth (write item ++ rest) = .ok (item.stripTags, rest)
  | .null, _, _, rest => by
    cases depth <;> rfl
  | .bool value, _, _, rest => by
    cases depth <;> cases value <;> rfl
  | .integer value, writable, _, rest => by
    obtain ⟨low, high⟩ := writable
    by_cases nonneg : 0 ≤ value
    · have head := isHead_writeHead 0 (by omega) (by omega : value.toNat < UInt64.size)
      rw [write, if_pos nonneg]
      have same : (value.toNat : Int) = value := Int.toNat_of_nonneg nonneg
      cases depth <;> simp only [readItem, readItemWith_unsigned head, same, stripTags]
    · have head := isHead_writeHead 1 (by omega)
        (by omega : (-1 - value).toNat < UInt64.size)
      rw [write, if_neg nonneg]
      have same : -1 - ((-1 - value).toNat : Int) = value := by omega
      cases depth <;> simp only [readItem, readItemWith_negative head, same, stripTags]
  | .float value, writable, _, rest => by
    cases depth <;> exact readItemWith_float writable
  | .bytes value, short, _, rest => by
    have head := isHead_writeHead 2 (by omega) short
    rw [write, List.append_assoc]
    cases depth <;> exact readItemWith_bytes head
  | .text value, short, _, rest => by
    have head := isHead_writeHead 3 (by omega) short
    rw [write, List.append_assoc]
    cases depth <;> exact readItemWith_text head bounded short
  | .array items, ⟨short, writable⟩, shallow, rest => by
    obtain ⟨depth, rfl⟩ := Nat.exists_eq_succ_of_ne_zero (Nat.ne_zero_of_lt shallow)
    have head := isHead_writeHead 4 (by omega) short
    have read := readMany_writeAll bounded items writable (Nat.le_of_succ_le_succ shallow) rest
    rw [write, List.append_assoc]
    exact readItemWith_array head read
  | .map entries, ⟨short, writable⟩, shallow, rest => by
    obtain ⟨depth, rfl⟩ := Nat.exists_eq_succ_of_ne_zero (Nat.ne_zero_of_lt shallow)
    have head := isHead_writeHead 5 (by omega) short
    have read := readMany_writeEntries bounded entries writable (Nat.le_of_succ_le_succ shallow) rest
    rw [write, List.append_assoc]
    exact readItemWith_map head read
  | .tag number item, ⟨short, writable⟩, shallow, rest => by
    obtain ⟨depth, rfl⟩ := Nat.exists_eq_succ_of_ne_zero (Nat.ne_zero_of_lt shallow)
    have head := isHead_writeHead 6 (by omega) short
    rw [write, List.append_assoc]
    -- The tag takes a level and is dropped, so what is read is what is read for its item.
    exact (readItemWith_tag head).trans
      (readItem_write_append bounded item writable (Nat.le_of_succ_le_succ shallow) rest)

theorem readMany_writeAll {total : Nat} (bounded : total < UInt64.size) {depth : Nat} :
    (items : List Item) → WritableAll items → nestingAll items ≤ depth → (rest : Bytes) →
      readMany (readItem total depth) items.length (writeAll items ++ rest) =
        .ok (stripTagsAll items, rest)
  | [], _, _, rest => rfl
  | item :: items, ⟨writable, others⟩, shallow, rest => by
    obtain ⟨hitem, hitems⟩ := Nat.max_le.mp shallow
    rw [List.length_cons, readMany, writeAll, List.append_assoc,
      readItem_write_append bounded item writable hitem]
    simp only [ok_bind, readMany_writeAll bounded items others hitems, pure_eq_ok, stripTagsAll]

theorem readMany_writeEntries {total : Nat} (bounded : total < UInt64.size) {depth : Nat} :
    (entries : List (Item × Item)) → WritableEntries entries → nestingEntries entries ≤ depth →
      (rest : Bytes) →
      readMany (readItemWith.readEntry (readItem total depth)) entries.length
        (writeEntries entries ++ rest) = .ok (stripTagsEntries entries, rest)
  | [], _, _, rest => rfl
  | (key, value) :: entries, ⟨writableKey, writableValue, others⟩, shallow, rest => by
    obtain ⟨hentry, hentries⟩ := Nat.max_le.mp shallow
    obtain ⟨hkey, hvalue⟩ := Nat.max_le.mp hentry
    rw [List.length_cons, readMany, writeEntries, List.append_assoc, List.append_assoc,
      readItemWith.readEntry, readItem_write_append bounded key writableKey hkey]
    simp only [ok_bind, readItem_write_append bounded value writableValue hvalue, pure_eq_ok,
      readMany_writeEntries bounded entries others hentries, stripTagsEntries]

end

/-- An item that fits the wire and the depth limit reads back without its tags. -/
theorem decode_encode {item : Item} (short : (write item).length < UInt64.size)
    (writable : item.Writable) (shallow : item.nesting ≤ depthLimit) :
    decode (encode item) = .ok item.stripTags := by
  have read := readItem_write_append short item writable shallow []
  rw [List.append_nil] at read
  have mark : selfDescribed.isPrefixOf (encode item) = true := by
    simp [encode]
  have body : (encode item).drop selfDescribed.length = write item := List.drop_left
  simp only [decode, mark, if_true, body, read, ok_bind, pure_eq_ok]

end Cbor
end Certified
