import Certified.CertifiedMap.Basic
import Certified.HashTree.Encoding

/-!
The tree of a certified map. Its root is published, and a witness is the same tree with all pruned
but the entry of one key.
-/

namespace Certified.CertifiedMap

/-- The balanced tree of some entries: the left half is rounded down. -/
def layout : List Entry → HashTree
  | [] => .empty
  | [(key, value)] => .labeled key (.leaf value)
  | first :: second :: rest =>
    let entries := first :: second :: rest
    .fork (layout (entries.take (entries.length / 2))) (layout (entries.drop (entries.length / 2)))
termination_by entries => entries.length
decreasing_by
  all_goals simp only [List.length_take, List.length_drop, List.length_cons]
  all_goals omega

/-- The same tree with all pruned that does not lead to `key`. -/
def reveal (key : Label) (entries : List Entry) : HashTree :=
  if entries.any (·.1 = key) then
    match entries with
    | first :: second :: rest =>
      let entries := first :: second :: rest
      .fork (reveal key (entries.take (entries.length / 2)))
        (reveal key (entries.drop (entries.length / 2)))
    | entries => layout entries
  else (layout entries).prune
termination_by entries.length
decreasing_by
  all_goals simp only [List.length_take, List.length_drop, List.length_cons]
  all_goals omega

def tree (m : CertifiedMap) : HashTree :=
  layout m.entries

/-- The digest to publish. -/
def root (m : CertifiedMap) : Digest :=
  m.tree.root

/-- A tree that shows the entry of a key and nothing else. -/
def witness? (m : CertifiedMap) (key : Label) : Option HashTree :=
  if (m.get? key).isSome then some (reveal key m.entries) else none

def witnessBytes? (m : CertifiedMap) (key : Label) : Option Bytes :=
  (m.witness? key).map HashTree.encode

end Certified.CertifiedMap
