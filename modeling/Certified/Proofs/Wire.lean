import Certified.Proofs.Cbor.Depth
import Certified.Proofs.Encoding
import Certified.Proofs.HashTree.Grammar

/-!
Trees and certificates on the wire. What is written for them reads back if a reader follows as deep as they
go, and is refused for its depth otherwise. What was read can be written and read again, in whichever of
its forms it came.
-/

namespace Certified

open Cbor (Item)
open Cbor.Item

/-- What is in the way of reading an item is that it is too deep. -/
theorem decodeItem_encode_of_deep {item : Item}
    (writable : (Cbor.write item).length < UInt64.size → item.Writable)
    (deep : Cbor.depthLimit < item.nesting) (short : (Cbor.encode item).length < UInt64.size) :
    ∃ offset, decodeItem (Cbor.encode item) = .error (.cbor ⟨.tooDeep, offset⟩) := by
  have fits : (Cbor.write item).length < UInt64.size :=
    Nat.lt_of_le_of_lt (Cbor.length_write_le_encode item) short
  obtain ⟨offset, refused⟩ := Cbor.refused_encode fits (writable fits) deep
  exact ⟨offset, by rw [decodeItem, refused, mapError_error]⟩

theorem nesting_le_of_decodeItem {bytes : Bytes} {item : Item} (h : decodeItem bytes = .ok item) :
    item.nesting ≤ Cbor.depthLimit :=
  Cbor.nesting_le_of_decode (mapError_eq_ok_iff.mp h)

namespace HashTree

theorem decode_encode_of_deep {t : HashTree} (deep : Cbor.depthLimit < t.height)
    (short : t.encode.length < UInt64.size) :
    ∃ offset, decode t.encode = .error (.cbor ⟨.tooDeep, offset⟩) := by
  rw [← nesting_toItem] at deep
  obtain ⟨offset, refused⟩ := decodeItem_encode_of_deep writable_toItem deep short
  exact ⟨offset, by rw [decode, encode, refused, error_bind]⟩

theorem height_le_of_ofItem {item : Item} {t : HashTree} (h : ofItem item = .ok t) :
    t.height ≤ item.nesting := by
  rw [← nesting_toItem, ← stripTags_of_ofItem h]
  exact Cbor.nesting_stripTags_le item

/-- A tree that was read is no higher than the reader follows. -/
theorem height_le_of_decode {bytes : Bytes} {t : HashTree} (h : decode bytes = .ok t) :
    t.height ≤ Cbor.depthLimit := by
  obtain ⟨item, read, h⟩ := bind_eq_ok_iff.mp h
  exact (height_le_of_ofItem (mapError_eq_ok_iff.mp h)).trans (nesting_le_of_decodeItem read)

end HashTree

namespace Certificate

theorem lt_nesting_toItem (c : Certificate) : c.tree.height < c.toItem.nesting := by
  cases hd : c.delegation with
  | none =>
    simp only [toItem, hd, nesting, nestingEntries, c.tree.nesting_toItem]
    omega
  | some d =>
    simp only [toItem, hd, nesting, nestingEntries, c.tree.nesting_toItem]
    omega

theorem decode_encode_of_deep {c : Certificate} (deep : Cbor.depthLimit ≤ c.tree.height)
    (short : c.encode.length < UInt64.size) :
    ∃ offset, decode c.encode = .error (.cbor ⟨.tooDeep, offset⟩) := by
  have deep : Cbor.depthLimit < c.toItem.nesting := Nat.lt_of_le_of_lt deep c.lt_nesting_toItem
  obtain ⟨offset, refused⟩ := decodeItem_encode_of_deep writable_toItem deep short
  exact ⟨offset, by rw [decode, encode, refused, error_bind]⟩

theorem untag_of_entriesOf {what : String} {item : Item} {entries : List (Item × Item)}
    (h : entriesOf what item = .ok entries) : item.untag = .map entries := by
  rw [entriesOf] at h
  split at h
  · rename_i map
    cases h
    exact map
  · cases h

theorem exists_mem_of_entry? {name : String} {entries : List (Item × Item)} {value : Item}
    (h : Item.entry? name entries = some value) : ∃ key, (key, value) ∈ entries := by
  obtain ⟨⟨key, held⟩, found, rfl⟩ := Option.map_eq_some_iff.mp h
  exact ⟨key, List.mem_reverse.mp (List.mem_of_find?_eq_some found)⟩

/-- The tree of a certificate is read from an entry of its map. -/
theorem exists_entry_of_ofItem {item : Item} {c : Certificate} (h : ofItem item = .ok c) :
    ∃ entries key tree, item.untag = .map entries ∧ (key, tree) ∈ entries ∧
      HashTree.ofItem tree = .ok c.tree := by
  obtain ⟨entries, map, h⟩ := bind_eq_ok_iff.mp h
  have map := untag_of_entriesOf (mapError_eq_ok_iff.mp map)
  dsimp only at h
  split at h
  · rename_i tree found
    obtain ⟨key, mem⟩ := exists_mem_of_entry? found
    obtain ⟨t, read, h⟩ := bind_eq_ok_iff.mp h
    obtain ⟨signature, _, h⟩ := bind_eq_ok_iff.mp h
    have same : c.tree = t := by
      split at h
      all_goals
        obtain ⟨delegation, _, h⟩ := bind_eq_ok_iff.mp h
        cases h
        rfl
    exact ⟨entries, key, tree, map, mem, same ▸ mapError_eq_ok_iff.mp read⟩
  · cases h

/-- The tree of a certificate that was read leaves room for the map around it. -/
theorem height_lt_of_decode {bytes : Bytes} {c : Certificate} (h : decode bytes = .ok c) :
    c.tree.height < Cbor.depthLimit := by
  obtain ⟨item, read, h⟩ := bind_eq_ok_iff.mp h
  obtain ⟨entries, key, tree, map, mem, h⟩ := exists_entry_of_ofItem h
  calc c.tree.height
    _ ≤ tree.nesting := HashTree.height_le_of_ofItem h
    _ ≤ nestingEntries entries := Cbor.nesting_le_of_mem mem
    _ < (Item.map entries).nesting := Nat.lt_succ_self _
    _ ≤ item.nesting := map ▸ Cbor.nesting_untag_le item
    _ ≤ Cbor.depthLimit := nesting_le_of_decodeItem read

end Certificate

namespace Wire

/-- All byte strings, what is written among them, are shorter than 64-bit lengths count. Then trees and
certificates read back from what is written for them as long as a reader follows them to their leaves,
for a certificate's tree one level less; any higher and the depth is refused. And what was read, in
whichever of its forms it came, reads back when it is written again. -/
theorem round_trip :
    (∀ t : HashTree, t.encode.length < UInt64.size →
      (t.height ≤ Cbor.depthLimit → HashTree.decode t.encode = .ok t) ∧
      (Cbor.depthLimit < t.height →
        ∃ offset, HashTree.decode t.encode = .error (.cbor ⟨.tooDeep, offset⟩))) ∧
    (∀ c : Certificate, c.encode.length < UInt64.size →
      (c.tree.height ≤ Cbor.depthLimit - 1 → Certificate.decode c.encode = .ok c) ∧
      (Cbor.depthLimit - 1 < c.tree.height →
        ∃ offset, Certificate.decode c.encode = .error (.cbor ⟨.tooDeep, offset⟩))) ∧
    (∀ bytes t, HashTree.decode bytes = .ok t → t.encode.length < UInt64.size →
      HashTree.decode t.encode = .ok t) ∧
    (∀ bytes c, Certificate.decode bytes = .ok c → c.encode.length < UInt64.size →
      Certificate.decode c.encode = .ok c) := by
  have limit : Cbor.depthLimit = 127 := rfl
  refine ⟨fun t short => ⟨?_, ?_⟩, fun c short => ⟨?_, ?_⟩, ?_, ?_⟩
  · intro shallow
    exact HashTree.decode_encode shallow short
  · intro deep
    exact HashTree.decode_encode_of_deep deep short
  · intro shallow
    exact Certificate.decode_encode (by omega) short
  · intro deep
    exact Certificate.decode_encode_of_deep (by omega) short
  · intro bytes t read short
    exact HashTree.decode_encode (HashTree.height_le_of_decode read) short
  · intro bytes c read short
    exact Certificate.decode_encode (Certificate.height_lt_of_decode read) short

/-- A leaf under so many labels. -/
def chain : Nat → HashTree
  | 0 => .leaf []
  | n + 1 => .labeled [n.toUInt8] (chain n)

def delegated (n : Nat) : Certificate where
  tree := chain n
  signature := [7]
  delegation := some { subnetId := [1], certificate := [2] }

theorem length_write_chain (n : Nat) : (Cbor.write (chain n).toItem).length = 4 * n + 3 := by
  induction n with
  | zero => rfl
  | succ n ih =>
    simp [chain, HashTree.toItem, Cbor.write, Cbor.writeAll, Cbor.writeHead, ih]
    omega

theorem short_chain {n : Nat} (h : n ≤ 127) : (chain n).encode.length < UInt64.size := by
  have small : 3 + (4 * 127 + 3) < UInt64.size := by decide
  have mark : Cbor.selfDescribed.length = 3 := rfl
  rw [HashTree.encode, Cbor.encode, List.length_append, length_write_chain]
  omega

theorem length_encode_delegated (n : Nat) :
    (delegated n).encode.length = (delegated 0).encode.length + 4 * n := by
  simp only [Certificate.encode, Cbor.encode, Certificate.toItem, delegated, Cbor.write,
    Cbor.writeEntries, List.length_append, List.length_cons, List.length_nil, length_write_chain]
  omega

theorem short_delegated {n : Nat} (h : n ≤ 127) : (delegated n).encode.length < UInt64.size := by
  have small : (delegated 0).encode.length + 4 * 127 < UInt64.size := by decide +kernel
  have grown := length_encode_delegated n
  omega

/-- A leaf in an array of indefinite length in a tag, its value in two pieces. -/
def looseTree : Bytes :=
  [0xc1, 0x9f, 0x18, 0x03, 0x5f, 0x41, 0x01, 0x41, 0x02, 0xff, 0xff]

/-- A map with one more entry, and with the entries that matter in the other order. -/
def looseCertificate : Bytes :=
  [0xa3, 0x01, 0xf6] ++ (0x69 :: Bytes.ofText "signature") ++ [0x41, 0x07] ++
    (0x64 :: Bytes.ofText "tree") ++ [0x81, 0x00]

def bare : Certificate where
  tree := .empty
  signature := [7]
  delegation := none

theorem decode_looseTree : HashTree.decode looseTree = .ok (.leaf [1, 2]) := by
  decide +kernel

theorem decode_looseCertificate : Certificate.decode looseCertificate = .ok bare := by
  decide +kernel

/-- The highest trees that read back, the lowest ones that do not, and two loose forms. -/
theorem round_trip_sample :
    HashTree.decode (chain 126).encode = .ok (chain 126) ∧
    (∃ offset, HashTree.decode (chain 127).encode = .error (.cbor ⟨.tooDeep, offset⟩)) ∧
    Certificate.decode (delegated 125).encode = .ok (delegated 125) ∧
    (∃ offset, Certificate.decode (delegated 126).encode = .error (.cbor ⟨.tooDeep, offset⟩)) ∧
    HashTree.decode (HashTree.leaf [1, 2]).encode = .ok (.leaf [1, 2]) ∧
    Certificate.decode bare.encode = .ok bare := by
  obtain ⟨trees, certificates, again, certificateAgain⟩ := round_trip
  refine ⟨?_, ?_, ?_, ?_, ?_, ?_⟩
  · exact (trees (chain 126) (short_chain (by decide))).1 (by decide +kernel)
  · exact (trees (chain 127) (short_chain (by decide))).2 (by decide +kernel)
  · exact (certificates (delegated 125) (short_delegated (by decide))).1 (by decide +kernel)
  · exact (certificates (delegated 126) (short_delegated (by decide))).2 (by decide +kernel)
  · exact again looseTree _ decode_looseTree (by decide +kernel)
  · exact certificateAgain looseCertificate _ decode_looseCertificate (by decide +kernel)

end Wire

end Certified
