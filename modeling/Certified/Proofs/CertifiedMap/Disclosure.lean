import Certified.Proofs.CertifiedMap.Contents
import Certified.Proofs.CertifiedMap.Witness

/-!
What a witness of a certified map tells: the entry of its key, and of all other keys nothing, not even
whether they are in the map, unless the map has no other entry.
-/

namespace Certified.CertifiedMap

open HashTree

variable {key other : Label} {value : Bytes} {entries : List Entry}

theorem eq_singleton_of_held (held : entries.any (·.1 = key) = true)
    (few : ∀ first second rest, entries = first :: second :: rest → False) :
    ∃ value, entries = [(key, value)] := by
  rcases entries with _ | ⟨⟨k, value⟩, _ | ⟨second, rest⟩⟩
  · simp at held
  · obtain rfl : k = key := by simpa using held
    exact ⟨value, rfl⟩
  · exact (few _ _ _ rfl).elim

theorem ne_of_not_held (hidden : ¬ entries.any (·.1 = key) = true) : ∀ e ∈ entries, e.1 ≠ key :=
  fun e mem same => hidden (List.any_eq_true.mpr ⟨e, mem, by simpa using same⟩)

/-- Of some entries only those of the key are listed. -/
theorem paths_reveal (key : Label) (entries : List Entry) :
    (reveal key entries).paths = (entries.filter (·.1 = key)).map fun e => ([e.1], e.2) := by
  fun_induction reveal key entries with
  | case1 first second rest entries held ihl ihr =>
    rw [paths, ihl, ihr, ← List.map_append, ← List.filter_append, List.take_append_drop]
  | case2 entries few held =>
    obtain ⟨value, rfl⟩ := eq_singleton_of_held held few
    simp [layout, paths]
  | case3 entries hidden =>
    have none : entries.filter (·.1 = key) = [] :=
      List.filter_eq_nil_iff.mpr fun e mem => by simpa using ne_of_not_held hidden e mem
    rw [none]
    rfl

/-- Sorted entries have one with a key at most. -/
theorem filter_key (increasing : Increasing entries) (mem : (key, value) ∈ entries) :
    entries.filter (·.1 = key) = [(key, value)] := by
  induction entries with
  | nil => cases mem
  | cons first rest ih =>
    obtain ⟨before, increasing⟩ := List.pairwise_cons.mp increasing
    rcases List.mem_cons.mp mem with rfl | mem
    · have others : rest.filter (·.1 = key) = [] := by
        refine List.filter_eq_nil_iff.mpr fun e he => ?_
        have : e.1 ≠ key := fun same => List.lt_irrefl key (same ▸ before e he)
        simpa using this
      simp [others]
    · have : first.1 ≠ key := fun same => List.lt_irrefl key (same ▸ before (key, value) mem)
      simp [this, ih increasing mem]

/-- The first entry of the key is shown if there is one, and else nothing. -/
theorem lookup_reveal (key : Label) (entries : List Entry) :
    (reveal key entries).lookup [key] =
      ((entries.find? (·.1 = key)).map fun e => Answer.found e.2).getD .unknown := by
  fun_induction reveal key entries with
  | case1 first second rest entries held ihl ihr =>
    have split : entries.find? (·.1 = key) =
        ((entries.take (entries.length / 2)).find? (·.1 = key)).or
          ((entries.drop (entries.length / 2)).find? (·.1 = key)) := by
      rw [← List.find?_append, List.take_append_drop]
    rw [lookup_fork_cons, ihl, ihr, split]
    cases (entries.take (entries.length / 2)).find? (·.1 = key) with
    | some e => simp
    | none =>
      cases (entries.drop (entries.length / 2)).find? (·.1 = key) <;> simp [Answer.or]
  | case2 entries few held =>
    obtain ⟨value, rfl⟩ := eq_singleton_of_held held few
    simp [layout, lookup]
  | case3 entries hidden =>
    have none : entries.find? (·.1 = key) = none :=
      List.find?_eq_none.mpr fun e mem => by simpa using ne_of_not_held hidden e mem
    simp [none, prune]

/-- About another key nothing is said, except where the key that is shown is the only one. -/
theorem lookup_reveal_of_ne (ne : other ≠ key) (increasing : Increasing entries) :
    (reveal key entries).lookup [other] =
      if entries.map (·.1) = [key] then .absent else .unknown := by
  fun_induction reveal key entries with
  | case1 first second rest entries held ihl ihr =>
    have several : entries.map (·.1) ≠ [key] := by simp [entries]
    have keys : entries.map (·.1) = (entries.take (entries.length / 2)).map (·.1) ++
        (entries.drop (entries.length / 2)).map (·.1) := by
      rw [← List.map_append, List.take_append_drop]
    have nodup := nodup_keys increasing
    rw [keys] at nodup
    rw [if_neg several, lookup_fork_cons, ihl (increasing.sublist (List.take_sublist _ _)),
      ihr (increasing.sublist (List.drop_sublist _ _))]
    -- The key is in one half only, so what stands for the other half is pruned.
    split
    · rename_i left
      have right : (entries.drop (entries.length / 2)).map (·.1) ≠ [key] := by
        intro right
        rw [left, right] at nodup
        simp at nodup
      rw [if_neg right]
      rfl
    · split <;> rfl
  | case2 entries few held =>
    obtain ⟨value, rfl⟩ := eq_singleton_of_held held few
    simp [layout, ne.symm]
  | case3 entries hidden =>
    have hidden : entries.map (·.1) ≠ [key] := by
      intro single
      have mem : key ∈ entries.map (·.1) := single ▸ List.mem_singleton_self key
      obtain ⟨e, mem, same⟩ := List.mem_map.mp mem
      exact ne_of_not_held hidden e mem same
    simp [hidden, prune]

theorem witness?_eq_some_iff {m : CertifiedMap} {witness : HashTree} :
    m.witness? key = some witness ↔ (m.get? key).isSome ∧ reveal key m.entries = witness := by
  by_cases held : (m.get? key).isSome <;> simp [witness?, held]

theorem witness?_eq_none_iff {m : CertifiedMap} :
    m.witness? key = none ↔ key ∉ m.entries.map (·.1) := by
  rw [← isSome_get?_iff]
  by_cases held : (m.get? key).isSome <;> simp [witness?, held]

/-- A key that is in the map is its only one where there are not two entries. -/
theorem keys_eq_singleton_iff (held : (key, value) ∈ entries) :
    entries.map (·.1) = [key] ↔ ¬ 2 ≤ entries.length := by
  rcases entries with _ | ⟨first, _ | ⟨second, rest⟩⟩
  · cases held
  · obtain rfl := List.mem_singleton.mp held
    simp
  · simp

/-- There is a witness exactly of the keys in the map. It has the root of the map, finds the value of its
key and lists this entry alone; any other key it leaves unknown if the map has a second entry, in the map
or not, and else it is absent. -/
theorem witness_shows_one_entry (m : CertifiedMap) (key : Label) :
    (m.witness? key = none ↔ key ∉ m.entries.map (·.1)) ∧
    ∀ witness, m.witness? key = some witness → ∃ value, m.get? key = some value ∧
      witness.root = m.root ∧
      witness.lookup [key] = .found value ∧
      witness.paths = [([key], value)] ∧
      ∀ other, other ≠ key →
        witness.lookup [other] = if 2 ≤ m.size then .unknown else .absent := by
  refine ⟨witness?_eq_none_iff, ?_⟩
  intro witness h
  obtain ⟨held, rfl⟩ := witness?_eq_some_iff.mp h
  obtain ⟨value, held⟩ := Option.isSome_iff_exists.mp held
  have mem : (key, value) ∈ m.entries := get?_eq_some_iff.mp held
  refine ⟨value, held, root_witness h, ?_, ?_, ?_⟩
  · obtain ⟨entry, found, same⟩ := Option.map_eq_some_iff.mp held
    rw [lookup_reveal, found, Option.map_some, Option.getD_some, same]
  · rw [paths_reveal, filter_key m.increasing mem, List.map_singleton]
  · intro other ne
    rw [lookup_reveal_of_ne ne m.increasing]
    by_cases several : 2 ≤ m.entries.length <;> simp [keys_eq_singleton_iff mem, size, several]

namespace Sample

/-- Three entries, of which one was overwritten. -/
def three : CertifiedMap :=
  ofList [([2], [7]), ([1], [8]), ([1, 1], []), ([2], [9])]

end Sample

/-- Of three keys the second is shown; the third and a missing one stay unknown. -/
theorem witness_shows_one_entry_sample :
    ∃ witness, Sample.three.witness? [1, 1] = some witness ∧
      witness.root = Sample.three.root ∧ witness.lookup [[1, 1]] = .found [] ∧
      witness.paths = [([[1, 1]], [])] ∧
      witness.lookup [[2]] = .unknown ∧ witness.lookup [[3]] = .unknown := by
  have held : (Sample.three.get? [1, 1]).isSome := by decide
  obtain ⟨witness, shown⟩ := exists_witness held
  obtain ⟨value, same, root, found, paths, others⟩ :=
    (witness_shows_one_entry Sample.three [1, 1]).2 witness shown
  cases same
  exact ⟨witness, shown, root, found, paths, others [2] (by decide), others [3] (by decide)⟩

end Certified.CertifiedMap
