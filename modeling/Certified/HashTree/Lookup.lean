import Certified.HashTree.Basic

/-!
Looking up a path of labels. A tree may hide the answer, so there are four of them, and a fork
asks both of its sides.
-/

namespace Certified

/-- What a tree says about a path. -/
inductive Answer where
  /-- The path leads to a leaf with this value. -/
  | found (value : Bytes)
  /-- Nothing is stored at the path. -/
  | absent
  /-- A pruned subtree hides whether something is stored at the path. -/
  | unknown
  /-- The path ends inside the tree. -/
  | error
deriving DecidableEq, Repr

namespace Answer

/-- The stronger of two answers; of two values the first. -/
def or : Answer → Answer → Answer
  | .found value, _ => .found value
  | _, .found value => .found value
  | .error, _ => .error
  | _, .error => .error
  | .unknown, _ => .unknown
  | _, .unknown => .unknown
  | .absent, .absent => .absent

def value? : Answer → Option Bytes
  | .found value => some value
  | _ => none

/-- The answer where nothing is hidden: a stored value or nothing. -/
def ofOption : Option Bytes → Answer
  | some value => .found value
  | none => .absent

@[simp] theorem ofOption_eq_found {o : Option Bytes} {value : Bytes} :
    ofOption o = .found value ↔ o = some value := by
  cases o <;> simp [ofOption]

@[simp] theorem ofOption_eq_absent {o : Option Bytes} : ofOption o = .absent ↔ o = none := by
  cases o <;> simp [ofOption]

@[simp] theorem ofOption_ne_error (o : Option Bytes) : ofOption o ≠ .error := by
  cases o <;> simp [ofOption]

@[simp] theorem found_or (value : Bytes) (b : Answer) : (found value).or b = .found value := by
  cases b <;> rfl

@[simp] theorem absent_or (b : Answer) : absent.or b = b := by
  cases b <;> rfl

@[simp] theorem or_absent (a : Answer) : a.or .absent = a := by
  cases a <;> rfl

@[simp] theorem or_eq_absent {a b : Answer} : a.or b = .absent ↔ a = .absent ∧ b = .absent := by
  cases a <;> cases b <;> simp [or]

theorem found_of_or {a b : Answer} {value : Bytes} (h : a.or b = .found value) :
    a = .found value ∨ b = .found value := by
  cases a <;> cases b <;> simp_all [or]

@[simp] theorem ofOption_or (a b : Option Bytes) : (ofOption a).or (ofOption b) = ofOption (a.or b) := by
  cases a <;> cases b <;> rfl

end Answer

namespace HashTree

/-- What the tree says about a path. A label on the way that is not the next one of the path says
that nothing is stored there. -/
def lookup : HashTree → List Label → Answer
  | .leaf value, [] => .found value
  | .empty, [] => .absent
  | .pruned _, [] => .unknown
  | .fork _ _, [] => .error
  | .labeled _ _, [] => .error
  | .labeled label subtree, next :: path =>
    if label = next then subtree.lookup path else .absent
  | .fork left right, next :: path =>
    (left.lookup (next :: path)).or (right.lookup (next :: path))
  | .pruned _, _ :: _ => .unknown
  | .empty, _ :: _ => .absent
  | .leaf _, _ :: _ => .absent

@[simp] theorem lookup_pruned (digest : Digest) (path : List Label) :
    (pruned digest).lookup path = .unknown := by
  cases path <;> rfl

@[simp] theorem lookup_fork_cons (left right : HashTree) (label : Label) (path : List Label) :
    (fork left right).lookup (label :: path) =
      (left.lookup (label :: path)).or (right.lookup (label :: path)) := rfl

@[simp] theorem lookup_labeled_cons (label next : Label) (subtree : HashTree) (path : List Label) :
    (labeled label subtree).lookup (next :: path) =
      if label = next then subtree.lookup path else .absent := rfl

end HashTree
end Certified
