import Mathlib.Data.List.Nodup
import Certified.Proofs.HashTree.Lookup
import Certified.Proofs.HashTree.Pruning

/-!
Two trees with one root laid over one another. Each of them is a pruning of what they show together, so
they show different values at a path only where together they show two nodes there.
-/

namespace Certified.HashTree

/-- What either of two trees shows. Where both show something the first counts. -/
def overlay : HashTree → HashTree → HashTree
  | .pruned _, t => t
  | .fork left right, .fork left' right' => .fork (overlay left left') (overlay right right')
  | .labeled label subtree, .labeled _ subtree' => .labeled label (overlay subtree subtree')
  | s, _ => s

theorem overlay_prune (t : HashTree) : overlay t t.prune = t := by
  cases t <;> rfl

/-- Trees that agree are prunings of what they show together. -/
theorem Agree.pruning_overlay {s t : HashTree} (h : Agree s t) :
    Pruning (overlay s t) s ∧ Pruning (overlay s t) t := by
  induction h with
  | prunedLeft t => exact ⟨.here t, .refl t⟩
  | prunedRight t =>
    rw [overlay_prune]
    exact ⟨.refl t, .here t⟩
  | empty => exact ⟨.empty, .empty⟩
  | fork _ _ ihl ihr => exact ⟨.fork ihl.1 ihr.1, .fork ihl.2 ihr.2⟩
  | labeled label _ ih => exact ⟨.labeled label ih.1, .labeled label ih.2⟩
  | leaf value => exact ⟨.leaf value, .leaf value⟩

/-- The leaves that a pruning shows at a path are leaves of the tree there. -/
theorem Pruning.leaf_mem_nodesAt {t p : HashTree} (h : Pruning t p) {path : List Label} {value : Bytes}
    (mem : .leaf value ∈ nodesAt path p) : .leaf value ∈ nodesAt path t := by
  induction h generalizing path with
  | here t => cases path <;> simp [nodesAt, prune, under, children, subtreeAt?] at mem
  | empty => exact mem
  | fork _ _ ihl ihr =>
    cases path with
    | nil => simp at mem
    | cons label path =>
      rw [nodesAt_fork, List.mem_append] at mem ⊢
      exact mem.imp ihl ihr
  | labeled label _ ih =>
    cases path with
    | nil => simp at mem
    | cons next path =>
      rw [nodesAt_labeled] at mem ⊢
      split at mem
      · rename_i heq
        rw [if_pos heq]
        exact ih mem
      · cases mem
  | leaf value' => exact mem

/-- Together the two trees show at most one node at the path. -/
def SingleAt (path : List Label) (s t : HashTree) : Prop :=
  (nodesAt path (overlay s t)).length ≤ 1

theorem eq_of_mem_of_length_le_one {α : Type} {a b : α} {l : List α} (h : l.length ≤ 1) (ha : a ∈ l)
    (hb : b ∈ l) : a = b := by
  match l, h with
  | [c], _ => exact (List.mem_singleton.mp ha).trans (List.mem_singleton.mp hb).symm

/-- Two trees with one root find one value where they show one node, unless messages collide. -/
theorem CollisionFree.found_eq {s t : HashTree} (safe : CollisionFree s t) (h : s.root = t.root)
    {path : List Label} (single : SingleAt path s t) {v w : Bytes} (hs : s.lookup path = .found v)
    (ht : t.lookup path = .found w) : v = w := by
  obtain ⟨left, right⟩ := (safe.agree h).pruning_overlay
  -- Either may hide the leaf that the other one finds; together they hide neither.
  have hv : .leaf v ∈ nodesAt path (overlay s t) := left.leaf_mem_nodesAt (leaf_mem_nodesAt hs)
  have hw : .leaf w ∈ nodesAt path (overlay s t) := right.leaf_mem_nodesAt (leaf_mem_nodesAt ht)
  exact leaf.inj (eq_of_mem_of_length_le_one single hv hw)

theorem length_under (label : Label) (t : HashTree) :
    (t.under label).length = t.labels.count label := by
  induction t with
  | empty => rfl
  | fork left right ihl ihr =>
    rw [under_fork, labels_fork, List.length_append, List.count_append, ihl, ihr]
  | labeled next subtree =>
    by_cases h : next = label <;> simp [h]
  | leaf value => rfl
  | pruned digest => rfl

theorem DistinctLabels.nodup_labels {t : HashTree} (h : t.DistinctLabels) : t.labels.Nodup := by
  cases t with
  | fork left right =>
    rw [labels_fork]
    exact h.1
  | labeled label subtree => exact List.nodup_singleton label
  | empty => exact List.nodup_nil
  | leaf value => exact List.nodup_nil
  | pruned digest => exact List.nodup_nil

theorem DistinctLabels.of_mem_under {t : HashTree} (h : t.DistinctLabels) {label : Label}
    {subtree : HashTree} (mem : subtree ∈ t.under label) : subtree.DistinctLabels := by
  induction t with
  | empty => cases mem
  | fork left right ihl ihr =>
    rw [under_fork, List.mem_append] at mem
    exact mem.elim (ihl h.2.1) (ihr h.2.2)
  | labeled next below =>
    rw [under_labeled] at mem
    split at mem
    · obtain rfl := List.mem_singleton.mp mem
      exact h
    · cases mem
  | leaf value => cases mem
  | pruned digest => cases mem

/-- Where labels are distinct, a path leads to one node at most. -/
theorem DistinctLabels.length_nodesAt_le {t : HashTree} (h : t.DistinctLabels) (path : List Label) :
    (nodesAt path t).length ≤ 1 := by
  induction path generalizing t with
  | nil => exact Nat.le_refl 1
  | cons label path ih =>
    have single : (t.under label).length ≤ 1 := by
      rw [length_under]
      exact List.nodup_iff_count_le_one.mp h.nodup_labels label
    match hu : t.under label, single with
    | [], _ => simp [nodesAt, hu]
    | [subtree], _ =>
      have mem : subtree ∈ t.under label := hu ▸ List.mem_singleton_self subtree
      simpa [nodesAt, hu] using ih (h.of_mem_under mem)

end Certified.HashTree
