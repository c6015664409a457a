import Certified.HashTree.Nodes

/-!
The parts of a tree: every node with what is below it. Parts may be replaced by their digests wherever they
stand, the largest of them first.
-/

namespace Certified.HashTree

/-- The tree itself and all trees in it, one for each node. -/
def parts : HashTree → List HashTree
  | .fork left right => .fork left right :: (left.parts ++ right.parts)
  | .labeled label subtree => .labeled label subtree :: subtree.parts
  | t => [t]

/-- The part that is reached through forks by these turns, false to the left and true to the right. -/
def partAt? : List Bool → HashTree → Option HashTree
  | [], t => some t
  | false :: turns, .fork left _ => left.partAt? turns
  | true :: turns, .fork _ right => right.partAt? turns
  | _ :: _, _ => none

/-- The tree in which every largest part that is to be hidden is replaced by its digest. What is hidden is not
looked into any further. -/
def hideWhere (hidden : HashTree → Bool) : HashTree → HashTree
  | .fork left right =>
    if hidden (.fork left right) then (fork left right).prune
    else .fork (left.hideWhere hidden) (right.hideWhere hidden)
  | .labeled label subtree =>
    if hidden (.labeled label subtree) then (labeled label subtree).prune
    else .labeled label (subtree.hideWhere hidden)
  | t => if hidden t then t.prune else t

/-- Every largest part that does not contain `shown` is hidden. The parts of `shown` belong to it. -/
def hideBeside (t shown : HashTree) : HashTree :=
  t.hideWhere fun part => shown ∉ part.parts ∧ part ∉ shown.parts

@[simp] theorem parts_fork (left right : HashTree) :
    (fork left right).parts = .fork left right :: (left.parts ++ right.parts) := rfl

@[simp] theorem parts_labeled (label : Label) (subtree : HashTree) :
    (labeled label subtree).parts = .labeled label subtree :: subtree.parts := rfl

@[simp] theorem parts_leaf (value : Bytes) : (leaf value).parts = [.leaf value] := rfl

@[simp] theorem parts_prune (t : HashTree) : t.prune.parts = [t.prune] := rfl

@[simp] theorem isPruned_prune (t : HashTree) : t.prune.isPruned = true := rfl

@[simp] theorem isPruned_fork (left right : HashTree) : (fork left right).isPruned = false := rfl

@[simp] theorem partAt?_nil (t : HashTree) : partAt? [] t = some t := by
  cases t <;> rfl

@[simp] theorem partAt?_left (turns : List Bool) (left right : HashTree) :
    partAt? (false :: turns) (fork left right) = left.partAt? turns := rfl

@[simp] theorem partAt?_right (turns : List Bool) (left right : HashTree) :
    partAt? (true :: turns) (fork left right) = right.partAt? turns := rfl

@[simp] theorem partAt?_labeled (turn : Bool) (turns : List Bool) (label : Label) (subtree : HashTree) :
    partAt? (turn :: turns) (labeled label subtree) = none := by
  cases turn <;> rfl

@[simp] theorem partAt?_prune (turn : Bool) (turns : List Bool) (t : HashTree) :
    partAt? (turn :: turns) t.prune = none := by
  cases turn <;> rfl

theorem hideWhere_of_hidden {hidden : HashTree → Bool} {t : HashTree} (h : hidden t = true) :
    t.hideWhere hidden = t.prune := by
  cases t <;> simp [hideWhere, h]

theorem hideWhere_fork {hidden : HashTree → Bool} {left right : HashTree}
    (h : hidden (.fork left right) = false) :
    (fork left right).hideWhere hidden = .fork (left.hideWhere hidden) (right.hideWhere hidden) := by
  simp [hideWhere, h]

end Certified.HashTree
