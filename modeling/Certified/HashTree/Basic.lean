import Certified.Digest

/-!
Labeled Merkle trees. A tree commits to labeled values through its root digest; a subtree that is
not shown is represented by its digest and leaves the root as it was.
-/

namespace Certified

/-- An edge label. -/
abbrev Label := Bytes

/-- A labeled Merkle tree. -/
inductive HashTree where
  | empty
  | fork (left right : HashTree)
  | labeled (label : Label) (subtree : HashTree)
  | leaf (value : Bytes)
  /-- A subtree of which only the digest is shown. -/
  | pruned (digest : Digest)
deriving DecidableEq

/-- One length byte and the bytes of the name. -/
def domainSeparator (name : String) : Bytes :=
  let bytes := Bytes.ofText name
  UInt8.ofNat bytes.length :: bytes

namespace HashTree

/-- The byte string whose hash is the root of an empty tree. -/
def emptyMessage : Bytes :=
  domainSeparator "ic-hashtree-empty"

def forkMessage (left right : Digest) : Bytes :=
  domainSeparator "ic-hashtree-fork" ++ left.bytes ++ right.bytes

def labeledMessage (label : Label) (subtree : Digest) : Bytes :=
  domainSeparator "ic-hashtree-labeled" ++ label ++ subtree.bytes

def leafMessage (value : Bytes) : Bytes :=
  domainSeparator "ic-hashtree-leaf" ++ value

/-- The digest that a tree commits to. -/
def root : HashTree → Digest
  | .empty => .sha256 emptyMessage
  | .fork left right => .sha256 (forkMessage left.root right.root)
  | .labeled label subtree => .sha256 (labeledMessage label subtree.root)
  | .leaf value => .sha256 (leafMessage value)
  | .pruned digest => digest

/-- The byte strings that are hashed to find the root. -/
def messages : HashTree → List Bytes
  | .empty => [emptyMessage]
  | .fork left right => forkMessage left.root right.root :: (left.messages ++ right.messages)
  | .labeled label subtree => labeledMessage label subtree.root :: subtree.messages
  | .leaf value => [leafMessage value]
  | .pruned _ => []

/-- The whole tree replaced by its digest. -/
def prune (t : HashTree) : HashTree :=
  .pruned t.root

@[simp] theorem root_prune (t : HashTree) : t.prune.root = t.root := rfl

/-- The number of nodes on the longest way down. -/
def height : HashTree → Nat
  | .fork left right => max left.height right.height + 1
  | .labeled _ subtree => subtree.height + 1
  | _ => 1

/-- Every path of labels to a leaf, and the leaf's value, from left to right. -/
def paths : HashTree → List (List Label × Bytes)
  | .fork left right => left.paths ++ right.paths
  | .labeled label subtree => subtree.paths.map fun (path, value) => (label :: path, value)
  | .leaf value => [([], value)]
  | _ => []

end HashTree
end Certified
