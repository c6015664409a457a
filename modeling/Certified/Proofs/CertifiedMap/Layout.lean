import Certified.CertifiedMap.Layout
import Certified.Proofs.HashTree.Pruning

/-!
The tree of a certified map answers for a key as the map does, hides nothing, and has each key once.
-/

namespace Certified.CertifiedMap

open HashTree

theorem lookup_layout (key : Label) (entries : List Entry) :
    (layout entries).lookup [key] = .ofOption ((entries.find? (·.1 = key)).map (·.2)) := by
  fun_induction layout entries with
  | case1 => rfl
  | case2 k v =>
    by_cases h : k = key
    · simp [h, lookup, Answer.ofOption]
    · simp [h, Answer.ofOption]
  | case3 first second rest entries ihl ihr =>
    rw [lookup_fork_cons, ihl, ihr, Answer.ofOption_or, ← Option.map_or, ← List.find?_append,
      List.take_append_drop]

theorem complete_layout (entries : List Entry) : (layout entries).Complete := by
  fun_induction layout entries with
  | case1 => trivial
  | case2 k v => trivial
  | case3 first second rest entries ihl ihr => exact ⟨ihl, ihr⟩

theorem labels_layout (entries : List Entry) : (layout entries).labels = entries.map (·.1) := by
  fun_induction layout entries with
  | case1 => rfl
  | case2 k v => rfl
  | case3 first second rest entries ihl ihr =>
    rw [labels_fork, ihl, ihr, ← List.map_append, List.take_append_drop]

theorem nodup_keys {entries : List Entry} (h : Increasing entries) :
    (entries.map (·.1)).Nodup := by
  rw [List.Nodup, List.pairwise_map]
  refine List.Pairwise.imp ?_ h
  intro a b hlt heq
  exact List.lt_irrefl _ (heq ▸ hlt)

theorem distinctLabels_layout {entries : List Entry} (h : Increasing entries) :
    (layout entries).DistinctLabels := by
  fun_induction layout entries with
  | case1 => trivial
  | case2 k v => trivial
  | case3 first second rest entries ihl ihr =>
    refine ⟨?_, ihl (h.sublist (List.take_sublist _ _)), ihr (h.sublist (List.drop_sublist _ _))⟩
    rw [labels_layout, labels_layout, ← List.map_append, List.take_append_drop]
    exact nodup_keys h

theorem lookup_tree (m : CertifiedMap) (key : Label) : m.tree.lookup [key] = .ofOption (m.get? key) :=
  lookup_layout key m.entries

theorem complete_tree (m : CertifiedMap) : m.tree.Complete :=
  complete_layout m.entries

theorem distinctLabels_tree (m : CertifiedMap) : m.tree.DistinctLabels :=
  distinctLabels_layout m.increasing

end Certified.CertifiedMap
