import Certified.CanisterRange
import Certified.Certificate.Encoding
import Certified.Proofs.Cbor.RoundTrip
import Certified.Proofs.HashTree.Pruning

/-!
What is written for trees, certificates and canister ranges reads back, as long as it is no longer than
64-bit lengths count and a tree is no higher than a reader follows.
-/

namespace Certified

open Cbor (Item)
open Cbor.Item

theorem Cbor.length_write_le_encode (item : Item) : (write item).length ≤ (encode item).length := by
  simp [encode]

/-- Counts of parts and lengths of digests fit the wire. -/
theorem Cbor.lt_size {n : Nat} (h : n ≤ 32) : n < UInt64.size :=
  Nat.lt_of_le_of_lt h (by decide)

theorem Cbor.Item.writable_bytes {value : Bytes} (h : value.length < UInt64.size) :
    (Item.bytes value).Writable := h

namespace HashTree

theorem stripTags_toItem (t : HashTree) : t.toItem.stripTags = t.toItem := by
  induction t with
  | empty => rfl
  | fork left right ihl ihr => simp only [toItem, stripTags, stripTagsAll, ihl, ihr]
  | labeled label subtree ih => simp only [toItem, stripTags, stripTagsAll, ih]
  | leaf value => rfl
  | pruned digest => rfl

theorem ofItem_fork (left right : Item) :
    ofItem (.array [.integer 1, left, right]) =
      (ofItem left >>= fun l => ofItem right >>= fun r => .ok (.fork l r)) := rfl

theorem ofItem_labeled (label : Label) (subtree : Item) :
    ofItem (.array [.integer 2, .bytes label, subtree]) =
      (ofItem subtree >>= fun t => .ok (.labeled label t)) := rfl

theorem ofItem_pruned (digest : Bytes) :
    ofItem (.array [.integer 4, .bytes digest]) =
      (digestOf (.bytes digest) >>= fun d => .ok (.pruned d)) := rfl

theorem digestOf_bytes (digest : Digest) : digestOf (.bytes digest.bytes) = .ok digest := by
  simp [digestOf, bytesOf, untag, Digest.ofBytes?_bytes]

theorem ofItem_toItem (t : HashTree) : ofItem t.toItem = .ok t := by
  induction t with
  | empty => rfl
  | fork left right ihl ihr => simp only [toItem, ofItem_fork, ihl, ihr, ok_bind]
  | labeled label subtree ih => simp only [toItem, ofItem_labeled, ih, ok_bind]
  | leaf value => rfl
  | pruned digest => simp only [toItem, ofItem_pruned, digestOf_bytes, ok_bind]

theorem nesting_toItem (t : HashTree) : t.toItem.nesting = t.height := by
  induction t with
  | empty => rfl
  | fork left right ihl ihr => simp [toItem, nesting, nestingAll, ihl, ihr, height]
  | labeled label subtree ih => simp [toItem, nesting, nestingAll, ih, height]
  | leaf value => rfl
  | pruned digest => rfl

theorem writable_array (code : Nat) (hcode : code ≤ 32) {parts : List Item}
    (hlength : parts.length < 32) (h : WritableAll parts) :
    (Item.array (.integer code :: parts)).Writable := by
  have hint : (Item.integer code).Writable := ⟨by omega, Int.ofNat_lt.mpr (Cbor.lt_size hcode)⟩
  exact ⟨Cbor.lt_size hlength, hint, h⟩

theorem writable_toItem {t : HashTree} (short : (Cbor.write t.toItem).length < UInt64.size) :
    t.toItem.Writable := by
  induction t with
  | empty => exact writable_array 0 (by omega) (by simp) trivial
  | fork left right ihl ihr =>
    simp only [toItem, Cbor.write, Cbor.writeAll, List.length_append] at short
    exact writable_array 1 (by omega) (by simp) ⟨ihl (by omega), ihr (by omega), trivial⟩
  | labeled label subtree ih =>
    simp only [toItem, Cbor.write, Cbor.writeAll, List.length_append] at short
    exact writable_array 2 (by omega) (by simp) ⟨writable_bytes (by omega), ih (by omega), trivial⟩
  | leaf value =>
    simp only [toItem, Cbor.write, Cbor.writeAll, List.length_append] at short
    exact writable_array 3 (by omega) (by simp) ⟨writable_bytes (by omega), trivial⟩
  | pruned digest =>
    have short : digest.bytes.length < UInt64.size := Cbor.lt_size digest.length_eq.le
    exact writable_array 4 (by omega) (by simp) ⟨writable_bytes short, trivial⟩

theorem decode_encode {t : HashTree} (shallow : t.height ≤ Cbor.depthLimit)
    (short : t.encode.length < UInt64.size) : decode t.encode = .ok t := by
  have fits : (Cbor.write t.toItem).length < UInt64.size :=
    Nat.lt_of_le_of_lt (Cbor.length_write_le_encode _) short
  have read := Cbor.decode_encode fits (writable_toItem fits) (nesting_toItem t ▸ shallow)
  simp [decode, decodeItem, encode, read, stripTags_toItem, ofItem_toItem]

/-- A leaf's value is part of what is written. -/
theorem length_le_of_mem_paths {t : HashTree} {path : List Label} {value : Bytes}
    (mem : (path, value) ∈ t.paths) : value.length ≤ (Cbor.write t.toItem).length := by
  induction t generalizing path with
  | empty => cases mem
  | fork left right ihl ihr =>
    simp only [toItem, Cbor.write, Cbor.writeAll, List.length_append]
    rcases List.mem_append.mp mem with mem | mem
    · have := ihl mem
      omega
    · have := ihr mem
      omega
  | labeled label subtree ih =>
    obtain ⟨⟨below, value'⟩, mem, same⟩ := List.mem_map.mp mem
    cases same
    have := ih mem
    simp only [toItem, Cbor.write, Cbor.writeAll, List.length_append]
    omega
  | leaf value' =>
    cases List.mem_singleton.mp mem
    simp only [toItem, Cbor.write, Cbor.writeAll, List.length_append]
    omega
  | pruned digest => cases mem

end HashTree

namespace Delegation

theorem stripTags_toItem (d : Delegation) : d.toItem.stripTags = d.toItem := rfl

theorem ofItem_toItem (d : Delegation) : ofItem d.toItem = .ok d := by
  simp [toItem, ofItem, entriesOf, bytesUnder, untag, entry?, isText]

theorem writable_toItem {d : Delegation} (short : (Cbor.write d.toItem).length < UInt64.size) :
    d.toItem.Writable := by
  have keys : (Bytes.ofText "subnet_id").length < UInt64.size ∧
      (Bytes.ofText "certificate").length < UInt64.size := by
    decide
  simp only [toItem, Cbor.write, Cbor.writeEntries, List.length_append] at short
  exact ⟨Cbor.lt_size (by simp), keys.1, writable_bytes (by omega), keys.2, writable_bytes (by omega),
    trivial⟩

end Delegation

namespace Certificate

theorem stripTags_toItem (c : Certificate) : c.toItem.stripTags = c.toItem := by
  cases hd : c.delegation with
  | none => simp [toItem, hd, stripTags, stripTagsEntries, c.tree.stripTags_toItem]
  | some d =>
    simp [toItem, hd, stripTags, stripTagsEntries, c.tree.stripTags_toItem, d.stripTags_toItem]

theorem ofItem_toItem (c : Certificate) : ofItem c.toItem = .ok c := by
  obtain ⟨tree, signature, delegation⟩ := c
  cases delegation with
  | none =>
    simp [toItem, ofItem, entriesOf, bytesUnder, untag, entry?, isText, tree.ofItem_toItem]
  | some d =>
    simp [toItem, ofItem, entriesOf, bytesUnder, untag, entry?, isText, tree.ofItem_toItem,
      d.ofItem_toItem, Except.map]

theorem nesting_toItem_le {c : Certificate} (shallow : c.tree.height < Cbor.depthLimit) :
    c.toItem.nesting ≤ Cbor.depthLimit := by
  have limit : Cbor.depthLimit = 127 := rfl
  cases hd : c.delegation with
  | none =>
    simp only [toItem, hd, nesting, nestingEntries, c.tree.nesting_toItem]
    omega
  | some d =>
    simp only [toItem, hd, nesting, nestingEntries, c.tree.nesting_toItem, Delegation.toItem]
    omega

theorem writable_toItem {c : Certificate} (short : (Cbor.write c.toItem).length < UInt64.size) :
    c.toItem.Writable := by
  have keys : (Bytes.ofText "tree").length < UInt64.size ∧
      (Bytes.ofText "signature").length < UInt64.size ∧
      (Bytes.ofText "delegation").length < UInt64.size := by
    decide
  cases hd : c.delegation with
  | none =>
    simp only [toItem, hd, Cbor.write, Cbor.writeEntries, List.length_append] at short ⊢
    have tree : c.tree.toItem.Writable := HashTree.writable_toItem (by omega)
    exact ⟨Cbor.lt_size (by simp), keys.1, tree, keys.2.1, writable_bytes (by omega), trivial⟩
  | some d =>
    simp only [toItem, hd, Cbor.write, Cbor.writeEntries, List.length_append] at short ⊢
    have tree : c.tree.toItem.Writable := HashTree.writable_toItem (by omega)
    have delegation : d.toItem.Writable := Delegation.writable_toItem (by omega)
    exact ⟨Cbor.lt_size (by simp), keys.1, tree, keys.2.1, writable_bytes (by omega), keys.2.2,
      delegation, trivial⟩

theorem decode_encode {c : Certificate} (shallow : c.tree.height < Cbor.depthLimit)
    (short : c.encode.length < UInt64.size) : decode c.encode = .ok c := by
  have fits : (Cbor.write c.toItem).length < UInt64.size :=
    Nat.lt_of_le_of_lt (Cbor.length_write_le_encode _) short
  have read := Cbor.decode_encode fits (writable_toItem fits) (nesting_toItem_le shallow)
  simp [decode, decodeItem, encode, read, c.stripTags_toItem, c.ofItem_toItem]

/-- What is found in a certificate's tree is part of what is written. -/
theorem length_le_of_lookup {c : Certificate} {path : List Label} {value : Bytes}
    (found : c.tree.lookup path = .found value) : value.length ≤ c.encode.length := by
  have leaf := HashTree.length_le_of_mem_paths (HashTree.mem_paths_of_lookup found)
  simp only [encode, Cbor.encode, toItem, Cbor.write, Cbor.writeEntries, List.length_append]
  omega

/-- The delegation's certificate is part of what is written. -/
theorem length_delegation_lt {c : Certificate} {d : Delegation} (h : c.delegation = some d) :
    d.certificate.length < c.encode.length := by
  simp only [encode, Cbor.encode, toItem, h, Delegation.toItem, Cbor.write, Cbor.writeEntries,
    List.length_append]
  have mark : 0 < Cbor.selfDescribed.length := by decide
  omega

end Certificate

namespace CanisterRange

theorem stripTags_toItem (r : CanisterRange) : r.toItem.stripTags = r.toItem := rfl

theorem ofItem_toItem (r : CanisterRange) : ofItem r.toItem = .ok r := rfl

theorem writable_toItem {r : CanisterRange} (short : (Cbor.write r.toItem).length < UInt64.size) :
    r.toItem.Writable := by
  simp only [toItem, Cbor.write, Cbor.writeAll, List.length_append] at short
  exact ⟨Cbor.lt_size (by simp), writable_bytes (by omega), writable_bytes (by omega), trivial⟩

theorem stripTagsAll_map (ranges : List CanisterRange) :
    stripTagsAll (ranges.map toItem) = ranges.map toItem := by
  induction ranges with
  | nil => rfl
  | cons r ranges ih => simp only [List.map_cons, stripTagsAll, stripTags_toItem, ih]

theorem nestingAll_map_le (ranges : List CanisterRange) : nestingAll (ranges.map toItem) ≤ 1 := by
  induction ranges with
  | nil => exact Nat.zero_le 1
  | cons r ranges ih => exact Nat.max_le.mpr ⟨Nat.le_refl 1, ih⟩

theorem length_le_writeAll (ranges : List CanisterRange) :
    ranges.length ≤ (Cbor.writeAll (ranges.map toItem)).length := by
  induction ranges with
  | nil => exact Nat.zero_le _
  | cons r ranges ih =>
    have head := Cbor.length_writeHead_pos 4 2
    simp only [List.map_cons, Cbor.writeAll, toItem, Cbor.write, List.length_append,
      List.length_cons, List.length_nil, Nat.zero_add, Nat.reduceAdd] at ih ⊢
    omega

theorem writableAll_map {ranges : List CanisterRange}
    (short : (Cbor.writeAll (ranges.map toItem)).length < UInt64.size) :
    WritableAll (ranges.map toItem) := by
  induction ranges with
  | nil => trivial
  | cons r ranges ih =>
    simp only [List.map_cons, Cbor.writeAll, List.length_append] at short
    exact ⟨writable_toItem (by omega), ih (by omega)⟩

theorem decodeAll_encodeAll {ranges : List CanisterRange}
    (short : (encodeAll ranges).length < UInt64.size) : decodeAll (encodeAll ranges) = .ok ranges := by
  have fits : (Cbor.write (.array (ranges.map toItem))).length < UInt64.size :=
    Nat.lt_of_le_of_lt (Cbor.length_write_le_encode _) short
  have inner : (Cbor.writeAll (ranges.map toItem)).length < UInt64.size := by
    simp only [Cbor.write, List.length_append] at fits
    omega
  have count : (ranges.map toItem).length < UInt64.size := by
    rw [List.length_map]
    exact Nat.lt_of_le_of_lt (length_le_writeAll ranges) inner
  have shallow : (Item.array (ranges.map toItem)).nesting ≤ Cbor.depthLimit := by
    have limit : Cbor.depthLimit = 127 := rfl
    have := nestingAll_map_le ranges
    simp only [nesting]
    omega
  have read := Cbor.decode_encode fits ⟨count, writableAll_map inner⟩ shallow
  simp only [decodeAll, decodeItem, encodeAll, read, mapError_ok, ok_bind, stripTags,
    stripTagsAll_map, listOfItem, untag, mapM_map_eq_ok ofItem_toItem]

end CanisterRange
end Certified
