import Certified.Cbor.Item

/-!
The entries of a map. A reader that asks for text keys sees the last entry under each of them, and no
entry under any other key.
-/

namespace Certified.Cbor.Item

/-- The map gives this value under a text key: the last entry under the key holds it. -/
def Under (name : String) (entries : List (Item × Item)) (value : Item) : Prop :=
  ∃ before after, entries = before ++ (.text name, value) :: after ∧
    ∀ entry ∈ after, entry.1 ≠ .text name

/-- The map has no entry under a text key. -/
def Lacks (name : String) (entries : List (Item × Item)) : Prop :=
  ∀ entry ∈ entries, entry.1 ≠ .text name

/-- The entries under some text keys, in their order. -/
def only (names : List String) (entries : List (Item × Item)) : List (Item × Item) :=
  entries.filter fun entry => names.any fun name => entry.1.isText name

variable {name : String} {names : List String} {entries : List (Item × Item)} {value : Item}

theorem isText_iff {key : Item} : key.isText name = true ↔ key = .text name := by
  cases key <;> simp [isText]

/-- The search runs from the end, so what it passes over comes after the entry it stops at. -/
theorem entry?_eq_some_iff : Item.entry? name entries = some value ↔ Under name entries value := by
  simp only [Item.entry?, Option.map_eq_some_iff, List.find?_eq_some_iff_append, isText_iff]
  constructor
  · rintro ⟨⟨key, held⟩, ⟨rfl, after, before, split, passed⟩, rfl⟩
    refine ⟨before.reverse, after.reverse, ?_, ?_⟩
    · rw [← List.reverse_reverse entries, split]
      simp
    · intro entry mem
      have other := passed entry (List.mem_reverse.mp mem)
      simpa [← isText_iff] using other
  · rintro ⟨before, after, rfl, passed⟩
    refine ⟨(.text name, value), ⟨rfl, after.reverse, before.reverse, by simp, ?_⟩, rfl⟩
    intro entry mem
    have other := passed entry (List.mem_reverse.mp mem)
    simpa [← isText_iff] using other

theorem entry?_eq_none_iff : Item.entry? name entries = none ↔ Lacks name entries := by
  simp [Item.entry?, Lacks, ← isText_iff]

/-- A later entry under the key hides an earlier one. -/
theorem entry?_append (entries others : List (Item × Item)) :
    Item.entry? name (entries ++ others) = (Item.entry? name others).or (Item.entry? name entries) := by
  simp only [Item.entry?, List.reverse_append, List.find?_append]
  cases others.reverse.find? fun entry => entry.1.isText name <;> rfl

theorem entry?_cons (entry : Item × Item) (entries : List (Item × Item)) :
    Item.entry? name (entry :: entries) =
      (Item.entry? name entries).or (if entry.1.isText name then some entry.2 else none) := by
  rw [← List.singleton_append, entry?_append]
  cases asked : entry.1.isText name <;> simp [Item.entry?, asked]

/-- The entries under other keys are not looked at. -/
theorem entry?_only (mem : name ∈ names) :
    Item.entry? name (only names entries) = Item.entry? name entries := by
  have kept : (fun entry : Item × Item =>
      decide ((names.any fun name => entry.1.isText name) = true ∧ entry.1.isText name = true)) =
      fun entry => entry.1.isText name := by
    funext entry
    cases asked : entry.1.isText name with
    | false => simp
    | true => simpa using ⟨name, mem, asked⟩
  simp only [Item.entry?, only, ← List.filter_reverse, List.find?_filter, kept]

/-- Maps with the same entries under some keys give the same value under each of these. -/
theorem entry?_congr {others : List (Item × Item)} (same : only names entries = only names others)
    (mem : name ∈ names) : Item.entry? name entries = Item.entry? name others := by
  rw [← entry?_only mem, same, entry?_only mem]

end Certified.Cbor.Item
