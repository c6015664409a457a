import Certified.HashTree.Basic

/-!
The nodes of a tree as they lie along a path. Forks only hold trees side by side: a node is reached by
its labels, however the forks on the way are nested.
-/

namespace Certified.HashTree

/-- The trees that the forks at the top hold side by side, from left to right; empty ones do not
count. -/
def children : HashTree → List HashTree
  | .fork left right => left.children ++ right.children
  | .empty => []
  | t => [t]

/-- The label of a labeled tree. -/
def label? : HashTree → Option Label
  | .labeled label _ => some label
  | _ => none

/-- What a tree holds under a label, if it is labeled so. -/
def subtreeAt? (label : Label) : HashTree → Option HashTree
  | .labeled l subtree => if l = label then some subtree else none
  | _ => none

def isPruned : HashTree → Bool
  | .pruned _ => true
  | _ => false

/-- The labels that are reached through forks only. -/
def labels (t : HashTree) : List Label :=
  t.children.filterMap label?

/-- The subtrees under a label. -/
def under (label : Label) (t : HashTree) : List HashTree :=
  t.children.filterMap (subtreeAt? label)

/-- The nodes at a path, from left to right. -/
def nodesAt : List Label → HashTree → List HashTree
  | [], t => [t]
  | label :: path, t => (t.under label).flatMap (nodesAt path)

/-- A pruned tree is met on the way along a path, or stands at its end. -/
def hides : List Label → HashTree → Bool
  | [], t => t.isPruned
  | label :: path, t => t.children.any isPruned || (t.under label).any (hides path)

/-- Nowhere in the tree are two labels equal that are reached from one node through forks only. -/
def DistinctLabels : HashTree → Prop
  | .fork left right =>
    (left.labels ++ right.labels).Nodup ∧ left.DistinctLabels ∧ right.DistinctLabels
  | .labeled _ subtree => subtree.DistinctLabels
  | _ => True

instance decidableDistinctLabels : (t : HashTree) → Decidable t.DistinctLabels
  | .empty | .leaf _ | .pruned _ => .isTrue trivial
  | .labeled _ subtree => decidableDistinctLabels subtree
  | .fork left right =>
    have := decidableDistinctLabels left
    have := decidableDistinctLabels right
    inferInstanceAs (Decidable (_ ∧ _ ∧ _))

@[simp] theorem children_fork (left right : HashTree) :
    (fork left right).children = left.children ++ right.children := rfl

@[simp] theorem labels_fork (left right : HashTree) :
    (fork left right).labels = left.labels ++ right.labels := by
  simp [labels]

@[simp] theorem labels_labeled (label : Label) (subtree : HashTree) :
    (labeled label subtree).labels = [label] := rfl

@[simp] theorem under_fork (label : Label) (left right : HashTree) :
    (fork left right).under label = left.under label ++ right.under label := by
  simp [under]

@[simp] theorem under_labeled (label l : Label) (subtree : HashTree) :
    (labeled l subtree).under label = if l = label then [subtree] else [] := by
  by_cases h : l = label <;> simp [under, children, subtreeAt?, h]

@[simp] theorem nodesAt_nil (t : HashTree) : nodesAt [] t = [t] := rfl

@[simp] theorem hides_nil (t : HashTree) : hides [] t = t.isPruned := rfl

theorem nodesAt_fork (label : Label) (path : List Label) (left right : HashTree) :
    nodesAt (label :: path) (fork left right) =
      nodesAt (label :: path) left ++ nodesAt (label :: path) right := by
  simp [nodesAt]

@[simp] theorem nodesAt_labeled (next label : Label) (path : List Label) (subtree : HashTree) :
    nodesAt (next :: path) (labeled label subtree) =
      if label = next then nodesAt path subtree else [] := by
  by_cases h : label = next <;> simp [nodesAt, h]

theorem hides_fork (label : Label) (path : List Label) (left right : HashTree) :
    hides (label :: path) (fork left right) =
      (hides (label :: path) left || hides (label :: path) right) := by
  simp only [hides, children_fork, under_fork, List.any_append, Bool.or_assoc, Bool.or_left_comm]

@[simp] theorem hides_labeled (next label : Label) (path : List Label) (subtree : HashTree) :
    hides (next :: path) (labeled label subtree) =
      if label = next then hides path subtree else false := by
  by_cases h : label = next <;> simp [hides, children, isPruned, h]

end Certified.HashTree
