import Certified.Proofs.Cbor.Grammar
import Certified.Proofs.Encoding

/-!
Which bytes are canister ranges: those that carry an array of pairs of byte strings, with tags anywhere. The
reader of the ranges takes tags off the array and its elements only, but no item that it is given has any left.
-/

namespace Certified

open Cbor (Item)
open Cbor.Item

/-- No tag is left. -/
theorem Cbor.Item.untag_stripTags (item : Item) : item.stripTags.untag = item.stripTags := by
  rw [← stripTags_untag item]
  cases h : item.untag with
  | tag number inner => exact absurd h (untag_ne_tag item inner number)
  | _ => rfl

namespace CanisterRange

theorem ofItem_eq_ok_iff {item : Item} {r : CanisterRange} : ofItem item = .ok r ↔ item.untag = r.toItem := by
  unfold ofItem toItem
  constructor
  · intro h
    split at h
    · rename_i first last pair
      cases h
      exact pair
    · cases h
    · cases h
  · intro h
    rw [h]

theorem mapM_ofItem_eq_ok_iff {items : List Item} {ranges : List CanisterRange} :
    items.mapM ofItem = .ok ranges ↔ items.map untag = ranges.map toItem := by
  induction items generalizing ranges with
  | nil => cases ranges <;> simp
  | cons item items ih =>
    rw [List.mapM_cons, bind_eq_ok_iff]
    constructor
    · intro h
      obtain ⟨r, one, h⟩ := h
      obtain ⟨others, many, h⟩ := bind_eq_ok_iff.mp h
      cases h
      rw [List.map_cons, List.map_cons, ofItem_eq_ok_iff.mp one, ih.mp many]
    · intro h
      cases ranges with
      | nil => cases h
      | cons r ranges =>
        obtain ⟨one, many⟩ := List.cons.inj h
        exact ⟨r, ofItem_eq_ok_iff.mpr one, by rw [ih.mpr many]; rfl⟩

/-- Where no tag is left, ranges are the array of their pairs and nothing else. -/
theorem listOfItem_stripTags_eq_ok_iff {item : Item} {ranges : List CanisterRange} :
    listOfItem item.stripTags = .ok ranges ↔ item.stripTags = .array (ranges.map toItem) := by
  rw [listOfItem, Cbor.Item.untag_stripTags]
  split
  · rename_i stripped isArray
    obtain ⟨items, _, rfl⟩ := stripTags_eq_array_iff.mp isArray
    have untagged : (items.map stripTags).map untag = items.map stripTags := by
      simp only [List.map_map, Function.comp_def, Cbor.Item.untag_stripTags]
    rw [mapM_ofItem_eq_ok_iff, untagged, isArray, Item.array.injEq]
  · rename_i other
    constructor
    · intro h
      cases h
    · intro h
      exact absurd h (other _)

theorem decodeAll_eq_ok_iff {bytes : Bytes} {ranges : List CanisterRange} :
    decodeAll bytes = .ok ranges ↔ Cbor.decode bytes = .ok (.array (ranges.map toItem)) := by
  rw [decodeAll, bind_eq_ok_iff]
  constructor
  · intro h
    obtain ⟨item, read, h⟩ := h
    have read := mapError_eq_ok_iff.mp read
    obtain ⟨tagged, _, rfl⟩ := Cbor.carries_of_decode read
    rw [read, listOfItem_stripTags_eq_ok_iff.mp (mapError_eq_ok_iff.mp h)]
  · intro read
    refine ⟨_, mapError_eq_ok_iff.mpr read, mapError_eq_ok_iff.mpr ?_⟩
    obtain ⟨tagged, _, same⟩ := Cbor.carries_of_decode read
    rw [← same, listOfItem_stripTags_eq_ok_iff, same]

theorem decodeAll_eq_ok_iff_carries {bytes : Bytes} {ranges : List CanisterRange}
    (short : bytes.length < UInt64.size) : decodeAll bytes = .ok ranges ↔
      ∃ item, Cbor.Carries Cbor.depthLimit bytes item ∧ item.stripTags = .array (ranges.map toItem) := by
  rw [decodeAll_eq_ok_iff, Cbor.decode_eq_ok_iff short]
  rfl

/-- Ranges are read exactly where bytes carry an array of pairs of byte strings, whatever tags stand around it
and around its parts, and in no more depth than a reader follows; what was written reads back; and one element
that is no such pair spoils them all, in any depth. -/
theorem decodeAll_exact :
    (∀ (bytes : Bytes) (ranges : List CanisterRange), bytes.length < UInt64.size →
      (decodeAll bytes = .ok ranges ↔ ∃ item, Cbor.Carries Cbor.depthLimit bytes item ∧
        item.stripTags = .array (ranges.map fun r => .array [.bytes r.first, .bytes r.last]))) ∧
    (∀ ranges : List CanisterRange, (encodeAll ranges).length < UInt64.size →
      decodeAll (encodeAll ranges) = .ok ranges) ∧
    (∀ (depth : Nat) (bytes : Bytes) (item : Item) (elements : List Item),
      Cbor.Carries depth bytes item → item.stripTags = .array elements →
      (∃ element ∈ elements, ∀ first last, element ≠ .array [.bytes first, .bytes last]) →
      ∃ e, decodeAll bytes = .error e) := by
  refine ⟨?_, ?_, ?_⟩
  · intro bytes ranges short
    exact decodeAll_eq_ok_iff_carries short
  · intro ranges short
    exact decodeAll_encodeAll short
  · intro depth bytes item elements carried isArray spoiled
    cases read : decodeAll bytes with
    | error e => exact ⟨e, rfl⟩
    | ok ranges =>
      obtain ⟨item', carried', isArray'⟩ := Cbor.carries_of_decode (decodeAll_eq_ok_iff.mp read)
      have same := carried.unique carried'
      rw [isArray, isArray', Item.array.injEq] at same
      obtain ⟨element, mem, noPair⟩ := spoiled
      rw [same] at mem
      obtain ⟨r, -, pair⟩ := List.mem_map.mp mem
      exact absurd pair.symm (noPair r.first r.last)

namespace Sample

/-- The range from 1 to 2 in an array of indefinite length, with tags around the pair and both of its ends. -/
def spelled : Bytes := [0x9f, 0xc2, 0x82, 0xc3, 0x41, 0x01, 0xc4, 0x41, 0x02, 0xff]

def item : Item := .array [.tag 2 (.array [.tag 3 (.bytes [1]), .tag 4 (.bytes [2])])]

theorem spells_item : Cbor.Spells 4 spelled item := by
  have bound {n : Nat} {b c : UInt8} (tag : Cbor.Head 6 n [b]) :
      Cbor.Spells 1 ([b] ++ ([0x41] ++ [c])) (.tag n (.bytes [c])) :=
    .tag rfl tag (.bytes ⟨[0x41], .short (by simp) rfl, rfl⟩)
  have first := bound (b := 0xc3) (c := 1) (.short (n := 3) (by omega) rfl)
  have last := bound (b := 0xc4) (c := 2) (.short (n := 4) (by omega) rfl)
  have pair : Cbor.Spells 2 _ (.array [.tag 3 (.bytes [1]), .tag 4 (.bytes [2])]) :=
    .array rfl (.short (b := 0x82) (by simp) rfl) (.cons first (.cons last .nil))
  have element : Cbor.Spells 3 _ (.tag 2 (.array [.tag 3 (.bytes [1]), .tag 4 (.bytes [2])])) :=
    .tag rfl (.short (b := 0xc2) (n := 2) (by omega) rfl) pair
  exact .arrayToBreak rfl (.cons element .nil)

/-- Any number of tags of one byte. -/
theorem spells_tags (count : Nat) : Cbor.Spells (4 + count) (List.replicate count 0xc1 ++ spelled)
    (Nat.repeat (.tag 1) count item) := by
  induction count with
  | zero => exact spells_item
  | succ count ih =>
    have announced : Cbor.Head 6 1 [0xc1] := .short (by omega) rfl
    change Cbor.Spells (4 + count + 1) ([0xc1] ++ (List.replicate count 0xc1 ++ spelled)) _
    exact .tag rfl announced ih

theorem stripTags_repeat (count : Nat) :
    (Nat.repeat (.tag 1) count item).stripTags = .array [.array [.bytes [1], .bytes [2]]] := by
  induction count with
  | zero => rfl
  | succ count ih => exact ih

end Sample

/-- A tag around tagged ranges after the mark of CBOR data, the ranges of a subnet written and read, and a range
with three bounds. -/
theorem decodeAll_exact_sample :
    decodeAll (Cbor.selfDescribed ++ 0xc1 :: Sample.spelled) = .ok [⟨[1], [2]⟩] ∧
    decodeAll (encodeAll [⟨[1], [2]⟩, ⟨[], []⟩]) = .ok [⟨[1], [2]⟩, ⟨[], []⟩] ∧
    ∃ e, decodeAll [0x81, 0x83, 0x40, 0x40, 0x40] = .error e := by
  obtain ⟨exact, written, spoiled⟩ := decodeAll_exact
  refine ⟨?_, ?_, ?_⟩
  · refine (exact _ _ (by decide)).mpr ⟨_, .marked ?_, Sample.stripTags_repeat 1⟩
    exact (Sample.spells_tags 1).mono (by decide)
  · exact written _ (by decide)
  · have empty : Cbor.Spells 0 [0x40] (.bytes []) := .bytes ⟨[0x40], .short (by simp) rfl, rfl⟩
    have element : Cbor.Spells 1 _ (.array [.bytes [], .bytes [], .bytes []]) :=
      .array rfl (.short (b := 0x83) (by simp) rfl) (.cons empty (.cons empty (.cons empty .nil)))
    have ranges : Cbor.Spells 2 [0x81, 0x83, 0x40, 0x40, 0x40] _ :=
      .array rfl (.short (b := 0x81) (by simp) rfl) (.cons element .nil)
    exact spoiled 2 _ _ _ (.unmarked (by decide) ranges) rfl ⟨_, .head _, nofun⟩

/-- A reader follows no more than 127 arrays and tags into one another, so that ranges that are carried any
deeper are not read. -/
theorem exists_ranges_too_deep :
    ¬ ∀ (bytes : Bytes) (ranges : List CanisterRange), bytes.length < UInt64.size →
      (decodeAll bytes = .ok ranges ↔ ∃ depth item, Cbor.Carries depth bytes item ∧
        item.stripTags = .array (ranges.map fun r => .array [.bytes r.first, .bytes r.last])) := by
  intro h
  have short : (List.replicate 128 0xc1 ++ Sample.spelled).length < UInt64.size := by
    rw [List.length_append, List.length_replicate]
    decide
  have refused : (decodeAll (List.replicate 128 0xc1 ++ Sample.spelled)).toOption = none := by decide +kernel
  have read := (h _ [⟨[1], [2]⟩] short).mpr
    ⟨_, _, .unmarked (by decide) (Sample.spells_tags 128), Sample.stripTags_repeat 128⟩
  rw [read] at refused
  cases refused

end CanisterRange
end Certified
