import Certified.Proofs.CertifiedMap.Contents

/-!
What the whole tree of a certified map says. It stands for the map: every path gets the answer that the map
gives, and the leaves are its entries in the order of their keys.
-/

namespace Certified.CertifiedMap

open HashTree

/-- Below a key there is a value and nothing more. -/
theorem lookup_layout_of_long (first second : Label) (rest : List Label) (entries : List Entry) :
    (layout entries).lookup (first :: second :: rest) = .absent := by
  fun_induction layout entries with
  | case1 => rfl
  | case2 key value =>
    rw [lookup_labeled_cons]
    split <;> rfl
  | case3 _ _ _ entries ihl ihr => rw [lookup_fork_cons, ihl, ihr, Answer.absent_or]

/-- The empty path ends inside the tree, except where there is none. -/
theorem lookup_layout_nil (entries : List Entry) :
    (layout entries).lookup [] = if entries.isEmpty then .absent else .error := by
  fun_cases layout entries <;> rfl

theorem paths_layout (entries : List Entry) :
    (layout entries).paths = entries.map fun e => ([e.1], e.2) := by
  fun_induction layout entries with
  | case1 => rfl
  | case2 key value => rfl
  | case3 _ _ _ entries ihl ihr => rw [paths, ihl, ihr, ← List.map_append, List.take_append_drop]

/-- The tree of a map answers one label as the map does, longer paths with nothing, and the empty path with an
error unless the map is empty; it hides nothing. It lists the entries of the map, each once and in the order of
their keys. -/
theorem tree_answers_as_map (m : CertifiedMap) :
    (∀ key, m.tree.lookup [key] = .ofOption (m.get? key)) ∧
    (∀ first second rest, m.tree.lookup (first :: second :: rest) = .absent) ∧
    m.tree.lookup [] = (if m.isEmpty then .absent else .error) ∧
    (∀ path, m.tree.lookup path ≠ .unknown) ∧
    ∃ rows : List Entry, m.tree.paths = rows.map (fun row => ([row.1], row.2)) ∧ Increasing rows ∧
      ∀ key value, (key, value) ∈ rows ↔ m.get? key = some value := by
  have long first second rest : m.tree.lookup (first :: second :: rest) = .absent :=
    lookup_layout_of_long first second rest m.entries
  have nil : m.tree.lookup [] = if m.isEmpty then .absent else .error := lookup_layout_nil m.entries
  refine ⟨m.lookup_tree, long, nil, ?_, m.entries, paths_layout m.entries, m.increasing, ?_⟩
  · intro path
    match path with
    | [] =>
      rw [nil]
      split <;> simp
    | [key] =>
      rw [lookup_tree]
      cases m.get? key <;> simp [Answer.ofOption]
    | first :: second :: rest =>
      rw [long]
      simp
  · intro key value
    exact get?_eq_some_iff.symm

end Certified.CertifiedMap
