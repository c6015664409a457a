import Certified.Cbor.Item

/-!
Items without their tags. What an item is once its tags are gone is decided by what stands inside its
outermost ones.
-/

namespace Certified.Cbor.Item

theorem stripTags_untag (item : Item) : item.untag.stripTags = item.stripTags := by
  fun_induction untag item with
  | case1 number item ih => exact ih
  | case2 item untagged => rfl

theorem untag_ne_tag (item inner : Item) (number : Nat) : item.untag ≠ .tag number inner := by
  fun_induction untag item with
  | case1 number item ih => exact ih
  | case2 item untagged => exact untagged number inner

theorem stripTagsAll_eq_map (items : List Item) : stripTagsAll items = items.map stripTags := by
  induction items with
  | nil => rfl
  | cons item items ih => rw [stripTagsAll, ih, List.map_cons]

theorem stripTagsEntries_eq_map (entries : List (Item × Item)) :
    stripTagsEntries entries = entries.map fun entry => (entry.1.stripTags, entry.2.stripTags) := by
  induction entries with
  | nil => rfl
  | cons entry entries ih => rw [stripTagsEntries, ih, List.map_cons]

theorem stripTags_eq_integer_iff {item : Item} {n : Int} :
    item.stripTags = .integer n ↔ item.untag = .integer n := by
  rw [← stripTags_untag]
  cases h : item.untag with
  | tag number inner => exact absurd h (untag_ne_tag item inner number)
  | _ => simp [stripTags]

theorem stripTags_eq_bytes_iff {item : Item} {value : Bytes} :
    item.stripTags = .bytes value ↔ item.untag = .bytes value := by
  rw [← stripTags_untag]
  cases h : item.untag with
  | tag number inner => exact absurd h (untag_ne_tag item inner number)
  | _ => simp [stripTags]

theorem stripTags_eq_array_iff {item : Item} {stripped : List Item} :
    item.stripTags = .array stripped ↔
      ∃ items, item.untag = .array items ∧ items.map stripTags = stripped := by
  rw [← stripTags_untag]
  cases h : item.untag with
  | tag number inner => exact absurd h (untag_ne_tag item inner number)
  | _ => simp [stripTags, stripTagsAll_eq_map]

end Certified.Cbor.Item
