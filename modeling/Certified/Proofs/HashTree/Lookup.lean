import Certified.HashTree.Lookup
import Certified.HashTree.Nodes

/-!
What the answer to a path means. It is read off the nodes at the path and off what hides other nodes there,
so that it does not matter how the forks on the way are nested.
-/

namespace Certified

/-- The answer where there is a value or not, a node inside the tree or not, and something hidden or not.
What comes first counts. -/
def Answer.ofSeen (value? : Option Bytes) (interior hidden : Bool) : Answer :=
  match value? with
  | some value => .found value
  | none => if interior then .error else if hidden then .unknown else .absent

/-- The stronger of two answers is the answer to what was seen on either side, the left one first. -/
theorem Answer.ofSeen_or (v w : Option Bytes) (i j h k : Bool) :
    (ofSeen v i h).or (ofSeen w j k) = ofSeen (v.or w) (i || j) (h || k) := by
  cases v with
  | some value => exact found_or value _
  | none =>
    cases w with
    | some value => cases i <;> cases h <;> rfl
    | none => cases i <;> cases h <;> cases j <;> cases k <;> rfl

theorem Answer.ofSeen_eq_found_iff {v : Option Bytes} {interior hidden : Bool} {value : Bytes} :
    ofSeen v interior hidden = .found value ↔ v = some value := by
  cases v with
  | some first => simp [ofSeen]
  | none => cases interior <;> cases hidden <;> simp [ofSeen]

namespace HashTree

/-- The value of a leaf. -/
def leafValue? : HashTree → Option Bytes
  | .leaf value => some value
  | _ => none

theorem leafValue?_eq_some_iff {t : HashTree} {value : Bytes} :
    t.leafValue? = some value ↔ t = .leaf value := by
  cases t <;> simp [leafValue?]

/-- A fork or a labeled tree, where a path does not end. -/
def isInterior : HashTree → Bool
  | .fork _ _ | .labeled _ _ => true
  | _ => false

/-- What the nodes at a path say about it: the value of the leftmost leaf among them; else that one of them is
inside the tree; else that something is hidden, at the path or on the way; else that nothing is there. -/
def verdict (path : List Label) (t : HashTree) : Answer :=
  .ofSeen ((nodesAt path t).findSome? leafValue?) ((nodesAt path t).any isInterior) (hides path t)

theorem verdict_fork (label : Label) (path : List Label) (left right : HashTree) :
    (fork left right).verdict (label :: path) =
      (left.verdict (label :: path)).or (right.verdict (label :: path)) := by
  unfold verdict
  rw [nodesAt_fork, hides_fork, List.findSome?_append, List.any_append, Answer.ofSeen_or]

theorem verdict_labeled (label next : Label) (path : List Label) (subtree : HashTree) :
    (labeled label subtree).verdict (next :: path) =
      if label = next then subtree.verdict path else .absent := by
  unfold verdict
  rw [nodesAt_labeled, hides_labeled]
  split <;> rfl

/-- The search through the forks finds what the nodes at the path say. -/
theorem lookup_eq_verdict (t : HashTree) (path : List Label) : t.lookup path = t.verdict path := by
  induction t generalizing path with
  | empty => cases path <;> rfl
  | fork left right ihl ihr =>
    cases path with
    | nil => rfl
    | cons label path => rw [lookup_fork_cons, ihl, ihr, verdict_fork]
  | labeled label subtree ih =>
    cases path with
    | nil => rfl
    | cons next path => rw [lookup_labeled_cons, ih, verdict_labeled]
  | leaf value => cases path <;> rfl
  | pruned digest => cases path <;> rfl

/-- What is found at a path is a leaf there. -/
theorem leaf_mem_nodesAt {t : HashTree} {path : List Label} {value : Bytes}
    (found : t.lookup path = .found value) : .leaf value ∈ nodesAt path t := by
  rw [lookup_eq_verdict, verdict, Answer.ofSeen_eq_found_iff] at found
  obtain ⟨node, mem, first⟩ := List.exists_of_findSome?_eq_some found
  obtain rfl := leafValue?_eq_some_iff.mp first
  exact mem

/-- Below the forks at the top only the children count. -/
theorem verdict_cons_congr {s t : HashTree} (h : s.children = t.children) (label : Label)
    (path : List Label) : s.verdict (label :: path) = t.verdict (label :: path) := by
  have subtrees : s.under label = t.under label := by
    rw [under, under, h]
  unfold verdict
  rw [nodesAt, nodesAt, hides, hides, subtrees, h]

/-- The answer to a path is what the nodes at it say, and trees with the same children give the same answer to
every path but the empty one. -/
theorem lookup_meaning :
    (∀ (t : HashTree) (path : List Label), t.lookup path =
      match (nodesAt path t).findSome? leafValue? with
      | some value => .found value
      | none =>
        if (nodesAt path t).any isInterior then .error
        else if hides path t then .unknown
        else .absent) ∧
    ∀ (s t : HashTree), s.children = t.children → ∀ (label : Label) (path : List Label),
      s.lookup (label :: path) = t.lookup (label :: path) := by
  refine ⟨lookup_eq_verdict, ?_⟩
  intro s t same label path
  rw [lookup_eq_verdict, lookup_eq_verdict, verdict_cons_congr same]

namespace Nesting.Sample

/-- One label three times: over a pruned tree, over a label, and over a leaf. -/
def first : HashTree := .labeled [1] (.pruned (.sha256 []))
def second : HashTree := .labeled [1] (.labeled [2] (.leaf [5]))
def third : HashTree := .labeled [1] (.leaf [7])

def toTheLeft : HashTree := .fork (.fork first (.fork .empty second)) third

def toTheRight : HashTree := .fork .empty (.fork first (.fork second third))

end Nesting.Sample

/-- The leaf at the label counts although it stands last, and so does the one at the longer path although
something is hidden beside it. -/
theorem lookup_meaning_sample :
    Nesting.Sample.toTheLeft.children = Nesting.Sample.toTheRight.children ∧
    Nesting.Sample.toTheLeft.lookup [[1]] = .found [7] ∧
    Nesting.Sample.toTheRight.lookup [[1]] = .found [7] ∧
    Nesting.Sample.toTheRight.lookup [[1], [2]] = .found [5] ∧
    Nesting.Sample.toTheRight.lookup [[1], [3]] = .unknown := by
  obtain ⟨meaning, alike⟩ := lookup_meaning
  have same : Nesting.Sample.toTheLeft.children = Nesting.Sample.toTheRight.children := rfl
  have found : Nesting.Sample.toTheLeft.lookup [[1]] = .found [7] := meaning _ _
  refine ⟨same, found, ?_, meaning _ _, meaning _ _⟩
  rw [← alike _ _ same]
  exact found

end HashTree
end Certified
