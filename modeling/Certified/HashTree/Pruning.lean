import Certified.HashTree.Basic

/-!
Pruned trees. The holder of a tree may replace subtrees by their digests, at any places; this keeps
the root, so a root binds a tree only up to pruning, and only as long as no two byte strings that were
hashed have the same digest.
-/

namespace Certified

/-- Two different byte strings among these have the same digest. -/
def Collision (messages : List Bytes) : Prop :=
  ∃ x ∈ messages, ∃ y ∈ messages, x ≠ y ∧ Digest.sha256 x = Digest.sha256 y

theorem Collision.mono {some more : List Bytes} (h : Collision some) (sub : some ⊆ more) :
    Collision more := by
  obtain ⟨x, hx, y, hy, hne, heq⟩ := h
  exact ⟨x, sub hx, y, sub hy, hne, heq⟩

namespace HashTree

/-- The second tree is the first one with some of its subtrees replaced by their digests. -/
inductive Pruning : HashTree → HashTree → Prop where
  | here (t : HashTree) : Pruning t t.prune
  | empty : Pruning .empty .empty
  | fork {left right left' right' : HashTree} :
    Pruning left left' → Pruning right right' → Pruning (.fork left right) (.fork left' right')
  | labeled (label : Label) {subtree subtree' : HashTree} :
    Pruning subtree subtree' → Pruning (.labeled label subtree) (.labeled label subtree')
  | leaf (value : Bytes) : Pruning (.leaf value) (.leaf value)

/-- Two trees show the same except where one of them shows only the digest of the other's subtree. -/
inductive Agree : HashTree → HashTree → Prop where
  | prunedLeft (t : HashTree) : Agree t.prune t
  | prunedRight (t : HashTree) : Agree t t.prune
  | empty : Agree .empty .empty
  | fork {left right left' right' : HashTree} :
    Agree left left' → Agree right right' → Agree (.fork left right) (.fork left' right')
  | labeled (label : Label) {subtree subtree' : HashTree} :
    Agree subtree subtree' → Agree (.labeled label subtree) (.labeled label subtree')
  | leaf (value : Bytes) : Agree (.leaf value) (.leaf value)

theorem Pruning.refl (t : HashTree) : Pruning t t := by
  induction t with
  | empty => exact .empty
  | fork left right ihl ihr => exact .fork ihl ihr
  | labeled label subtree ih => exact .labeled label ih
  | leaf value => exact .leaf value
  | pruned digest => exact .here (.pruned digest)

theorem Pruning.agree {t p : HashTree} (h : Pruning t p) : Agree t p := by
  induction h with
  | here t => exact .prunedRight t
  | empty => exact .empty
  | fork _ _ ihl ihr => exact .fork ihl ihr
  | labeled label _ ih => exact .labeled label ih
  | leaf value => exact .leaf value

theorem Agree.symm {s t : HashTree} (h : Agree s t) : Agree t s := by
  induction h with
  | prunedLeft t => exact .prunedRight t
  | prunedRight t => exact .prunedLeft t
  | empty => exact .empty
  | fork _ _ ihl ihr => exact .fork ihl ihr
  | labeled label _ ih => exact .labeled label ih
  | leaf value => exact .leaf value

theorem Agree.root_eq {s t : HashTree} (h : Agree s t) : s.root = t.root := by
  induction h with
  | prunedLeft t => rfl
  | prunedRight t => rfl
  | empty => rfl
  | fork _ _ ihl ihr => simp only [root, ihl, ihr]
  | labeled label _ ih => simp only [root, ih]
  | leaf value => rfl

theorem Pruning.root_eq {t p : HashTree} (h : Pruning t p) : p.root = t.root :=
  h.agree.root_eq.symm

end HashTree
end Certified
