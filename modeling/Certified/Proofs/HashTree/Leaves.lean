import Mathlib
import Certified.HashTree.Basic

/-!
The leaves of a tree by the way to each: the turns at the forks and the labels that are passed. Turns tell
leaves apart that paths do not, and order them from left to right.
-/

namespace Certified.HashTree

/-- There is a leaf with this value at the end of the way with these turns, false to the left and true to
the right, that passes the labels of the path. -/
inductive LeafAt : HashTree → (turns : List Bool) → (path : List Label) → (value : Bytes) → Prop where
  | leaf (value : Bytes) : LeafAt (.leaf value) [] [] value
  | labeled (label : Label) {subtree : HashTree} {turns : List Bool} {path : List Label} {value : Bytes}
    (below : LeafAt subtree turns path value) :
    LeafAt (.labeled label subtree) turns (label :: path) value
  | left {l : HashTree} (r : HashTree) {turns : List Bool} {path : List Label} {value : Bytes}
    (below : LeafAt l turns path value) : LeafAt (.fork l r) (false :: turns) path value
  | right (l : HashTree) {r : HashTree} {turns : List Bool} {path : List Label} {value : Bytes}
    (below : LeafAt r turns path value) : LeafAt (.fork l r) (true :: turns) path value

/-- The rows are the leaves of the tree, each once and from left to right. -/
def ListsLeaves (t : HashTree) (rows : List (List Label × Bytes)) : Prop :=
  ∃ placed : List (List Bool × List Label × Bytes), placed.map Prod.snd = rows ∧
    placed.Pairwise (fun a b => a.1 < b.1) ∧
    ∀ turns path value, (turns, path, value) ∈ placed ↔ t.LeafAt turns path value

/-- A leaf of one side of a fork, seen from the fork. -/
def turn (side : Bool) (leaf : List Bool × List Label × Bytes) : List Bool × List Label × Bytes :=
  (side :: leaf.1, leaf.2)

/-- A leaf below a label, seen from the label. -/
def pass (label : Label) (leaf : List Bool × List Label × Bytes) : List Bool × List Label × Bytes :=
  (leaf.1, label :: leaf.2.1, leaf.2.2)

/-- The paths of the leaves with the turns that lead to them. -/
def placed : HashTree → List (List Bool × List Label × Bytes)
  | .fork l r => l.placed.map (turn false) ++ r.placed.map (turn true)
  | .labeled label subtree => subtree.placed.map (pass label)
  | .leaf value => [([], [], value)]
  | _ => []

theorem map_snd_placed (t : HashTree) : t.placed.map Prod.snd = t.paths := by
  induction t with
  | empty => rfl
  | fork l r ihl ihr =>
    rw [placed, List.map_append, List.map_map, List.map_map, paths, ← ihl, ← ihr]
    rfl
  | labeled label subtree ih =>
    rw [placed, List.map_map, paths, ← ih, List.map_map]
    rfl
  | leaf value => rfl
  | pruned digest => rfl

/-- Every leaf on the left of a fork comes before every leaf on its right. -/
theorem pairwise_placed (t : HashTree) : t.placed.Pairwise (fun a b => a.1 < b.1) := by
  induction t with
  | empty => exact List.Pairwise.nil
  | fork l r ihl ihr =>
    rw [placed, List.pairwise_append, List.pairwise_map, List.pairwise_map]
    refine ⟨ihl.imp fun lt => ?_, ihr.imp fun lt => ?_, ?_⟩
    · exact List.cons_lt_cons_iff.mpr (.inr ⟨rfl, lt⟩)
    · exact List.cons_lt_cons_iff.mpr (.inr ⟨rfl, lt⟩)
    · intro a memA b memB
      obtain ⟨a, _, rfl⟩ := List.mem_map.mp memA
      obtain ⟨b, _, rfl⟩ := List.mem_map.mp memB
      exact List.cons_lt_cons_iff.mpr (.inl (by decide))
  | labeled label subtree ih =>
    rw [placed, List.pairwise_map]
    exact ih
  | leaf value => exact List.pairwise_singleton _ _
  | pruned digest => exact List.Pairwise.nil

theorem mem_placed_of_leafAt {t : HashTree} {turns : List Bool} {path : List Label} {value : Bytes}
    (h : t.LeafAt turns path value) : (turns, path, value) ∈ t.placed := by
  induction h with
  | leaf value => exact List.mem_singleton.mpr rfl
  | labeled label _ ih => exact List.mem_map.mpr ⟨_, ih, rfl⟩
  | left r _ ih => exact List.mem_append_left _ (List.mem_map.mpr ⟨_, ih, rfl⟩)
  | right l _ ih => exact List.mem_append_right _ (List.mem_map.mpr ⟨_, ih, rfl⟩)

theorem leafAt_of_mem_placed {t : HashTree} {leaf : List Bool × List Label × Bytes}
    (mem : leaf ∈ t.placed) : t.LeafAt leaf.1 leaf.2.1 leaf.2.2 := by
  induction t generalizing leaf with
  | empty => cases mem
  | fork l r ihl ihr =>
    rcases List.mem_append.mp mem with mem | mem
    · obtain ⟨below, held, rfl⟩ := List.mem_map.mp mem
      exact .left r (ihl held)
    · obtain ⟨below, held, rfl⟩ := List.mem_map.mp mem
      exact .right l (ihr held)
  | labeled label subtree ih =>
    obtain ⟨below, held, rfl⟩ := List.mem_map.mp mem
    exact .labeled label (ih held)
  | leaf value =>
    rw [List.mem_singleton.mp mem]
    exact .leaf value
  | pruned digest => cases mem

theorem mem_placed_iff {t : HashTree} {leaf : List Bool × List Label × Bytes} :
    leaf ∈ t.placed ↔ t.LeafAt leaf.1 leaf.2.1 leaf.2.2 :=
  ⟨leafAt_of_mem_placed, mem_placed_of_leafAt⟩

theorem nodup_of_pairwise_turns {leaves : List (List Bool × List Label × Bytes)}
    (ordered : leaves.Pairwise (fun a b => a.1 < b.1)) : leaves.Nodup := by
  refine ordered.imp fun {a b} lt => ?_
  rintro rfl
  exact lt_irrefl a.1 lt

/-- The paths of a tree are its leaves, and there is no other list of them. -/
theorem listsLeaves_iff {t : HashTree} {rows : List (List Label × Bytes)} :
    t.ListsLeaves rows ↔ rows = t.paths := by
  constructor
  · rintro ⟨leaves, rfl, ordered, all⟩
    have same : leaves.Perm t.placed := by
      rw [List.perm_ext_iff_of_nodup (nodup_of_pairwise_turns ordered)
        (nodup_of_pairwise_turns (pairwise_placed t))]
      intro leaf
      rw [mem_placed_iff]
      exact all leaf.1 leaf.2.1 leaf.2.2
    have equal : leaves = t.placed := by
      refine same.eq_of_pairwise ?_ ordered (pairwise_placed t)
      intro a b _ _ before after
      exact absurd after (lt_asymm before)
    rw [equal, map_snd_placed]
  · rintro rfl
    exact ⟨t.placed, map_snd_placed t, pairwise_placed t, fun _ _ _ => mem_placed_iff⟩

end Certified.HashTree
