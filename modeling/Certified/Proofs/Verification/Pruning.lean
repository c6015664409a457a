import Certified.Verification.Basic
import Certified.Proofs.HashTree.Pruning
import Certified.Proofs.Issuance

/-!
Certificates of which parts are pruned. Pruning keeps the root, so the signature stays as good as it was;
the time and the data are still read as they were, or they are hidden and the check fails.
-/

namespace Certified.Certificate

open HashTree

/-- The certificate with another tree in place of its own. -/
def withTree (c : Certificate) (tree : HashTree) : Certificate :=
  { c with tree }

variable {c : Certificate} {p : HashTree}

theorem checkSignature_withTree (h : p.root = c.tree.root) (policy : Policy) (canister : Principal) :
    (c.withTree p).checkSignature policy canister = c.checkSignature policy canister := by
  simp only [checkSignature, signingKey, withTree, h]

theorem checkTime_withTree_of_lookup_eq (h : p.lookup timePath = c.tree.lookup timePath)
    (maxOffset now : UInt64) : (c.withTree p).checkTime maxOffset now = c.checkTime maxOffset now := by
  simp only [checkTime, time, withTree, h]

theorem checkTime_of_unknown (h : c.tree.lookup timePath = .unknown) (maxOffset now : UInt64) :
    c.checkTime maxOffset now = .error (.decode (.certificate (.noTime .unknown))) := by
  simp only [checkTime, time, h]
  rfl

theorem checkWitness_withTree_of_lookup_eq {canister : Principal}
    (h : p.lookup (dataPath canister) = c.tree.lookup (dataPath canister)) (witness : HashTree) :
    (c.withTree p).checkWitness canister witness = c.checkWitness canister witness := by
  simp only [checkWitness, certifiedData, withTree, h]

theorem checkWitness_of_unknown {canister : Principal}
    (h : c.tree.lookup (dataPath canister) = .unknown) (witness : HashTree) :
    c.checkWitness canister witness = .error .dataMissing := by
  simp only [checkWitness, certifiedData, h]

/-- Where the labels of a certificate's tree are distinct, each check of a pruning of it ends as the
certificate's own does, or fails because something is hidden. -/
theorem checks_of_pruning (h : Pruning c.tree p) (distinct : c.tree.DistinctLabels) (policy : Policy)
    (canister : Principal) (witness : HashTree) (maxOffset now : UInt64) :
    (c.withTree p).checkSignature policy canister = c.checkSignature policy canister ∧
    ((c.withTree p).checkTime maxOffset now = c.checkTime maxOffset now ∨
      ∃ cause, (c.withTree p).checkTime maxOffset now = .error (.decode cause)) ∧
    ((c.withTree p).checkWitness canister witness = c.checkWitness canister witness ∨
      (c.withTree p).checkWitness canister witness = .error .dataMissing) := by
  refine ⟨checkSignature_withTree h.root_eq policy canister, ?_, ?_⟩
  · rcases h.lookup_eq distinct timePath with hidden | shown
    · exact .inr ⟨_, checkTime_of_unknown hidden maxOffset now⟩
    · exact .inl (checkTime_withTree_of_lookup_eq shown maxOffset now)
  · rcases h.lookup_eq distinct (dataPath canister) with hidden | shown
    · exact .inr (checkWitness_of_unknown hidden witness)
    · exact .inl (checkWitness_withTree_of_lookup_eq shown witness)

namespace Sample

/-- A delegated certificate for the data of the management canister. -/
def certificate : Certificate where
  tree := stateTree Principal.management (.sha256 [1]) 1000000
  signature := [2]
  delegation := some ⟨[3], [4]⟩

/-- The data is pruned and the time is shown. -/
def tree : HashTree :=
  .fork
    (HashTree.labeled (Bytes.ofText "canister") (.labeled Principal.management.bytes
      (.labeled (Bytes.ofText "certified_data") (.leaf (Digest.sha256 [1]).bytes)))).prune
    (.labeled (Bytes.ofText "time") (.leaf (Leb128.write 1000000)))

theorem pruning : Pruning certificate.tree tree :=
  .fork (.here _) (.refl _)

theorem distinctLabels : certificate.tree.DistinctLabels :=
  distinctLabels_stateTree _ _ _

def policy : Policy where
  check := .none
  rootKey := [5]
  maxOffset := 0

end Sample

theorem checks_of_pruning_sample :
    Pruning Sample.certificate.tree Sample.tree ∧
    Sample.certificate.tree.DistinctLabels ∧
    (Sample.certificate.withTree Sample.tree).checkSignature Sample.policy Principal.management =
      Sample.certificate.checkSignature Sample.policy Principal.management ∧
    ((Sample.certificate.withTree Sample.tree).checkTime 0 1 = Sample.certificate.checkTime 0 1 ∨
      ∃ cause, (Sample.certificate.withTree Sample.tree).checkTime 0 1 = .error (.decode cause)) ∧
    ((Sample.certificate.withTree Sample.tree).checkWitness Principal.management (.leaf []) =
        Sample.certificate.checkWitness Principal.management (.leaf []) ∨
      (Sample.certificate.withTree Sample.tree).checkWitness Principal.management (.leaf []) =
        .error .dataMissing) :=
  ⟨Sample.pruning, Sample.distinctLabels, checks_of_pruning Sample.pruning Sample.distinctLabels
    Sample.policy Principal.management (.leaf []) 0 1⟩

end Certified.Certificate
