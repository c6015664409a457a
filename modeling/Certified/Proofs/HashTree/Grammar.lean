import Certified.DecodeError
import Certified.Proofs.Cbor.Tags
import Certified.Proofs.Steps

/-!
Which items are hash trees. Every node has one of five forms, and an item is read as a tree exactly if it
is what is written for the tree, with any tags around any of its parts.
-/

namespace Certified.HashTree

open Cbor (Item)
open Cbor.Item

/-- The forms of a node. -/
inductive IsNode : Item → Prop where
  | empty : IsNode (.array [.integer 0])
  | fork {left right : Item} :
    IsNode left → IsNode right → IsNode (.array [.integer 1, left, right])
  | labeled (label : Bytes) {subtree : Item} :
    IsNode subtree → IsNode (.array [.integer 2, .bytes label, subtree])
  | leaf (value : Bytes) : IsNode (.array [.integer 3, .bytes value])
  | pruned {digest : Bytes} :
    digest.length = 32 → IsNode (.array [.integer 4, .bytes digest])

theorem isNode_toItem (t : HashTree) : IsNode t.toItem := by
  induction t with
  | empty => exact .empty
  | fork left right ihl ihr => exact .fork ihl ihr
  | labeled label subtree ih => exact .labeled label ih
  | leaf value => exact .leaf value
  | pruned digest => exact .pruned digest.length_eq

/-- A node in one of the five forms is written for a tree. -/
theorem IsNode.exists_toItem {item : Item} (h : IsNode item) : ∃ t : HashTree, item = t.toItem := by
  induction h with
  | empty => exact ⟨.empty, rfl⟩
  | fork _ _ ihl ihr =>
    obtain ⟨left, rfl⟩ := ihl
    obtain ⟨right, rfl⟩ := ihr
    exact ⟨.fork left right, rfl⟩
  | labeled label _ ih =>
    obtain ⟨subtree, rfl⟩ := ih
    exact ⟨.labeled label subtree, rfl⟩
  | leaf value => exact ⟨.leaf value, rfl⟩
  | pruned length => exact ⟨.pruned ⟨_, length⟩, rfl⟩

theorem close_eq_ok_iff {code : Int} {node t : HashTree} {rest : List Item} :
    close code node rest = .ok t ↔ rest = [] ∧ node = t := by
  cases rest <;> simp [close]

theorem bytesOf_eq_ok_iff {part : Part} {item : Item} {value : Bytes} :
    bytesOf part item = .ok value ↔ item.stripTags = .bytes value := by
  rw [stripTags_eq_bytes_iff, bytesOf]
  split <;> simp_all

theorem digestOf_eq_ok_iff {item : Item} {digest : Digest} :
    digestOf item = .ok digest ↔ item.stripTags = .bytes digest.bytes := by
  rw [digestOf, bind_eq_ok_iff]
  constructor
  · rintro ⟨bytes, read, h⟩
    split at h
    · rename_i found
      cases h
      rw [Digest.bytes_of_ofBytes? found]
      exact bytesOf_eq_ok_iff.mp read
    · cases h
  · intro h
    exact ⟨digest.bytes, bytesOf_eq_ok_iff.mpr h, by simp [Digest.ofBytes?_bytes]⟩

/-- What is read as a tree is written for it. A case of the reader either fails or has read every part of
the array. -/
theorem stripTags_of_ofItem {item : Item} {t : HashTree} (h : ofItem item = .ok t) :
    item.stripTags = t.toItem := by
  fun_induction ofItem item generalizing t with
  | case1 number item ih => exact ih h
  | case3 code rest head =>
    obtain ⟨rfl, rfl⟩ := close_eq_ok_iff.mp h
    have code := stripTags_eq_integer_iff.mpr head
    simp only [stripTags, stripTagsAll, code, toItem]
  | case6 code left right rest head ihl ihr =>
    obtain ⟨l, hl, h⟩ := bind_eq_ok_iff.mp h
    obtain ⟨r, hr, h⟩ := bind_eq_ok_iff.mp h
    obtain ⟨rfl, rfl⟩ := close_eq_ok_iff.mp h
    have code := stripTags_eq_integer_iff.mpr head
    simp only [stripTags, stripTagsAll, code, ihl hl, ihr hr, toItem]
  | case9 code label subtree rest head ih =>
    obtain ⟨l, hl, h⟩ := bind_eq_ok_iff.mp h
    obtain ⟨s, hs, h⟩ := bind_eq_ok_iff.mp h
    obtain ⟨rfl, rfl⟩ := close_eq_ok_iff.mp h
    have code := stripTags_eq_integer_iff.mpr head
    simp only [stripTags, stripTagsAll, code, bytesOf_eq_ok_iff.mp hl, ih hs, toItem]
  | case11 code value rest head =>
    obtain ⟨v, hv, h⟩ := bind_eq_ok_iff.mp h
    obtain ⟨rfl, rfl⟩ := close_eq_ok_iff.mp h
    have code := stripTags_eq_integer_iff.mpr head
    simp only [stripTags, stripTagsAll, code, bytesOf_eq_ok_iff.mp hv, toItem]
  | case13 code digest rest head =>
    obtain ⟨d, hd, h⟩ := bind_eq_ok_iff.mp h
    obtain ⟨rfl, rfl⟩ := close_eq_ok_iff.mp h
    have code := stripTags_eq_integer_iff.mpr head
    simp only [stripTags, stripTagsAll, code, digestOf_eq_ok_iff.mp hd, toItem]
  | case5 code left head ih =>
    obtain ⟨_, _, h⟩ := bind_eq_ok_iff.mp h
    cases h
  | case8 code label head =>
    obtain ⟨_, _, h⟩ := bind_eq_ok_iff.mp h
    cases h
  | case2 | case4 | case7 | case10 | case12 | case14 | case15 | case16 => cases h

theorem ofItem_untag (item : Item) : ofItem item.untag = ofItem item := by
  fun_induction untag item with
  | case1 number item ih => exact ih
  | case2 item untagged => rfl

/-- An item that is an array of a code and some parts, tags aside, is read as this array. -/
theorem exists_array_of_stripTags {item : Item} {n : Int} {stripped : List Item}
    (h : item.stripTags = .array (.integer n :: stripped)) :
    ∃ code parts, ofItem item = ofItem (.array (code :: parts)) ∧ code.untag = .integer n ∧
      parts.map stripTags = stripped := by
  obtain ⟨items, array, same⟩ := stripTags_eq_array_iff.mp h
  obtain ⟨code, parts, rfl, head, tail⟩ := List.map_eq_cons_iff.mp same
  refine ⟨code, parts, ?_, stripTags_eq_integer_iff.mp head, tail⟩
  rw [← ofItem_untag, array]

/-- What is written for a tree is read as the tree, with any tags around it and its parts. -/
theorem ofItem_of_stripTags {item : Item} {t : HashTree} (h : item.stripTags = t.toItem) :
    ofItem item = .ok t := by
  induction t generalizing item with
  | empty =>
    obtain ⟨code, parts, same, head, h⟩ := exists_array_of_stripTags h
    obtain rfl := List.map_eq_nil_iff.mp h
    rw [same]
    simp only [ofItem, head, close]
  | fork left right ihl ihr =>
    obtain ⟨code, parts, same, head, h⟩ := exists_array_of_stripTags h
    obtain ⟨l, parts, rfl, hl, h⟩ := List.map_eq_cons_iff.mp h
    obtain ⟨r, parts, rfl, hr, h⟩ := List.map_eq_cons_iff.mp h
    obtain rfl := List.map_eq_nil_iff.mp h
    rw [same]
    simp only [ofItem, head, ihl hl, ihr hr, ok_bind, close]
  | labeled label subtree ih =>
    obtain ⟨code, parts, same, head, h⟩ := exists_array_of_stripTags h
    obtain ⟨l, parts, rfl, hl, h⟩ := List.map_eq_cons_iff.mp h
    obtain ⟨s, parts, rfl, hs, h⟩ := List.map_eq_cons_iff.mp h
    obtain rfl := List.map_eq_nil_iff.mp h
    rw [same]
    simp only [ofItem, head, bytesOf_eq_ok_iff.mpr hl, ih hs, ok_bind, close]
  | leaf value =>
    obtain ⟨code, parts, same, head, h⟩ := exists_array_of_stripTags h
    obtain ⟨v, parts, rfl, hv, h⟩ := List.map_eq_cons_iff.mp h
    obtain rfl := List.map_eq_nil_iff.mp h
    rw [same]
    simp only [ofItem, head, bytesOf_eq_ok_iff.mpr hv, ok_bind, close]
  | pruned digest =>
    obtain ⟨code, parts, same, head, h⟩ := exists_array_of_stripTags h
    obtain ⟨d, parts, rfl, hd, h⟩ := List.map_eq_cons_iff.mp h
    obtain rfl := List.map_eq_nil_iff.mp h
    rw [same]
    simp only [ofItem, head, digestOf_eq_ok_iff.mpr hd, ok_bind, close]

theorem ofItem_eq_ok_iff {item : Item} {t : HashTree} :
    ofItem item = .ok t ↔ item.stripTags = t.toItem :=
  ⟨stripTags_of_ofItem, ofItem_of_stripTags⟩

theorem exists_ofItem_iff {item : Item} : (∃ t, ofItem item = .ok t) ↔ IsNode item.stripTags := by
  constructor
  · rintro ⟨t, h⟩
    rw [stripTags_of_ofItem h]
    exact isNode_toItem t
  · intro h
    obtain ⟨t, same⟩ := h.exists_toItem
    exact ⟨t, ofItem_of_stripTags same⟩

/-- An item is read as a tree exactly if it is what is written for the tree, tags aside. So what is read
has one of the five forms at every node, and everything else is refused as a malformed tree. -/
theorem ofItem_exact (item : Item) :
    (∀ t, ofItem item = .ok t ↔ item.stripTags = t.toItem) ∧
    ((∃ t, ofItem item = .ok t) ↔ IsNode item.stripTags) ∧
    ((∃ cause, (ofItem item).mapError DecodeError.tree = .error (.tree cause)) ↔
      ¬ IsNode item.stripTags) := by
  refine ⟨fun t => ofItem_eq_ok_iff, exists_ofItem_iff, ?_⟩
  rw [← exists_ofItem_iff]
  cases ofItem item with
  | ok t => simp
  | error cause => simp

/-- A tag around a part changes nothing. -/
example (number : Nat) (value : Bytes) :
    ofItem (.array [.integer 3, .tag number (.bytes value)]) = .ok (.leaf value) := rfl

end Certified.HashTree
