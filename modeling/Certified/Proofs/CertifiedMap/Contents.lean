import Mathlib
import Certified.Proofs.CertifiedMap.Layout

/-!
What a certified map holds. A key has the value of its entry, each way to change the map changes the value
of the keys it is about, and a map is determined by the values of its keys.
-/

namespace Certified.CertifiedMap

theorem find?_put (entries : List Entry) (key k : Label) (value : Bytes) :
    ((put key value entries).find? (·.1 = k)).map (·.2) =
      if key = k then some value else (entries.find? (·.1 = k)).map (·.2) := by
  induction entries with
  | nil => by_cases h : key = k <;> simp [put, h]
  | cons head rest ih =>
    obtain ⟨first, held⟩ := head
    rw [put]
    split
    · by_cases h : key = k <;> simp [h]
    split
    · rename_i same
      by_cases h : key = k <;> simp [← same, h]
    · rename_i different
      by_cases h : first = k
      · have other : key ≠ k := fun same => different (same.trans h.symm)
        simp [h, other]
      · simp [h, ih]

theorem get?_insert (m : CertifiedMap) (key k : Label) (value : Bytes) :
    (m.insert key value).get? k = if key = k then some value else m.get? k :=
  find?_put m.entries key k value

theorem get?_erase (m : CertifiedMap) (key k : Label) :
    (m.erase key).get? k = if key = k then none else m.get? k := by
  rw [get?, erase, List.find?_filter]
  by_cases h : key = k
  · subst h
    simp
  · have same : (fun e : Entry => decide (decide (e.1 ≠ key) = true ∧ decide (e.1 = k) = true)) =
        fun e => decide (e.1 = k) := by
      funext e
      by_cases hk : e.1 = k
      · simp [hk, Ne.symm h]
      · simp [hk]
    rw [same, if_neg h, get?]

/-- Of several entries with one key the last counts. -/
theorem get?_ofList (entries : List Entry) (k : Label) :
    (ofList entries).get? k = (entries.reverse.find? (·.1 = k)).map (·.2) := by
  induction entries using List.reverseRecOn with
  | nil => rfl
  | append_singleton entries last ih =>
    rw [ofList, List.foldl_append, List.reverse_append]
    change ((ofList entries).insert last.1 last.2).get? k = _
    rw [get?_insert, ih]
    by_cases h : last.1 = k <;> simp [h]

/-- A key has the value of its entry. -/
theorem get?_eq_some_iff {m : CertifiedMap} {key : Label} {value : Bytes} :
    m.get? key = some value ↔ (key, value) ∈ m.entries := by
  constructor
  · intro h
    obtain ⟨⟨k, v⟩, found, rfl⟩ := Option.map_eq_some_iff.mp h
    obtain rfl : k = key := by simpa using List.find?_some found
    exact List.mem_of_find?_eq_some found
  · intro mem
    cases found : m.entries.find? (·.1 = key) with
    | none => exact absurd (List.find?_eq_none.mp found _ mem) (by simp)
    | some entry =>
      have same : entry.1 = key := by simpa using List.find?_some found
      have one : entry = (key, value) :=
        List.inj_on_of_nodup_map (nodup_keys m.increasing) (List.mem_of_find?_eq_some found) mem same
      simp [get?, found, one]

theorem isSome_get?_iff {m : CertifiedMap} {key : Label} :
    (m.get? key).isSome ↔ key ∈ m.entries.map (·.1) := by
  simp [get?]

/-- Two maps that hold the same are the same. -/
theorem ext_get? {m m' : CertifiedMap} (h : ∀ key, m.get? key = m'.get? key) : m = m' := by
  have irreflexive : Std.Irrefl fun a b : Entry => a.1 < b.1 := ⟨fun a => List.lt_irrefl a.1⟩
  have antisymmetric : Std.Antisymm fun a b : Entry => a.1 < b.1 :=
    ⟨fun a b ab ba => absurd ba (List.lt_asymm ab)⟩
  refine CertifiedMap.ext (m.increasing.eq_of_mem_iff m'.increasing ?_)
  intro entry
  rw [← get?_eq_some_iff, ← get?_eq_some_iff, h]

end Certified.CertifiedMap
