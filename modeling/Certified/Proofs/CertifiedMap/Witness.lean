import Mathlib
import Certified.CertifiedMap.Layout
import Certified.HashTree.Pruning

/-!
The witness of a certified map is a pruning of the map's tree, so it has its root, and both are as low as
a balanced tree can be.
-/

namespace Certified

open HashTree

theorem HashTree.Pruning.height_le {t p : HashTree} (h : Pruning t p) : p.height ≤ t.height := by
  induction h with
  | here t => cases t <;> simp [prune, height]
  | empty => exact Nat.le_refl _
  | fork _ _ ihl ihr =>
    simp only [height]
    omega
  | labeled label _ ih => exact Nat.succ_le_succ ih
  | leaf value => exact Nat.le_refl _

namespace CertifiedMap

theorem pruning_reveal (key : Label) (entries : List Entry) :
    Pruning (layout entries) (reveal key entries) := by
  fun_induction reveal key entries with
  | case1 held first second rest entries ihl ihr =>
    rw [layout]
    exact .fork ihl ihr
  | case2 entries held few => exact .refl _
  | case3 entries hidden => exact .here _

/-- Halving keeps the height at the logarithm of the number of entries, below which stand a label and a
leaf. -/
theorem height_layout_le {entries : List Entry} {k : Nat} (h : entries.length ≤ 2 ^ k) :
    (layout entries).height ≤ k + 2 := by
  induction k generalizing entries with
  | zero =>
    rcases entries with _ | ⟨⟨held, value⟩, _ | ⟨second, rest⟩⟩
    · simp [layout, height]
    · simp [layout, height]
    · simp at h
  | succ k ih =>
    rcases entries with _ | ⟨⟨held, value⟩, _ | ⟨second, rest⟩⟩
    · simp [layout, height]
    · simp [layout, height]
    · rw [layout, height]
      generalize (held, value) :: second :: rest = entries at h ⊢
      rw [Nat.pow_succ] at h
      have left : (entries.take (entries.length / 2)).length ≤ 2 ^ k := by
        rw [List.length_take]
        omega
      have right : (entries.drop (entries.length / 2)).length ≤ 2 ^ k := by
        rw [List.length_drop]
        omega
      have := ih left
      have := ih right
      omega

variable {m : CertifiedMap} {key : Label} {witness : HashTree}

theorem pruning_witness (h : m.witness? key = some witness) : Pruning m.tree witness := by
  unfold witness? at h
  split at h
  · cases h
    exact pruning_reveal key m.entries
  · cases h

theorem root_witness (h : m.witness? key = some witness) : witness.root = m.root :=
  (pruning_witness h).root_eq

theorem exists_witness (h : (m.get? key).isSome) : ∃ witness, m.witness? key = some witness :=
  ⟨_, if_pos h⟩

theorem height_witness_le {k : Nat} (h : m.witness? key = some witness) (size : m.size ≤ 2 ^ k) :
    witness.height ≤ k + 2 :=
  Nat.le_trans (pruning_witness h).height_le (height_layout_le size)

end CertifiedMap
end Certified
