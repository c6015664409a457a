import Certified.Issuance
import Certified.Proofs.HashTree.Pruning
import Certified.Verification.Delegation

/-!
What the state tree of a canister says: its data and the time, about everything else that it is absent.
What the state tree of a subnet says: its key, and its ranges if it has any.
-/

namespace Certified

open HashTree

variable (canister other : Principal) (data : Digest) (time : UInt64)

theorem complete_stateTree : (stateTree canister data time).Complete :=
  ⟨trivial, trivial⟩

theorem distinctLabels_stateTree : (stateTree canister data time).DistinctLabels := by
  have nodup : [Bytes.ofText "canister", Bytes.ofText "time"].Nodup := by decide
  exact ⟨nodup, trivial, trivial⟩

theorem lookup_stateTree_time :
    (stateTree canister data time).lookup Certificate.timePath = .found (Leb128.write time) := by
  have hne : Bytes.ofText "canister" ≠ Bytes.ofText "time" := by decide
  simp [stateTree, Certificate.timePath, hne, lookup]

theorem lookup_stateTree_data :
    (stateTree canister data time).lookup (Certificate.dataPath other) =
      if canister = other then .found data.bytes else .absent := by
  have hne : Bytes.ofText "time" ≠ Bytes.ofText "canister" := by decide
  have hbytes : canister.bytes = other.bytes ↔ canister = other := Principal.ext_iff.symm
  simp [stateTree, Certificate.dataPath, hne, hbytes, lookup]

theorem lookup_stateTree_subnet (path : List Label) :
    (stateTree canister data time).lookup (Bytes.ofText "subnet" :: path) = .absent := by
  have hcanister : Bytes.ofText "canister" ≠ Bytes.ofText "subnet" := by decide
  have htime : Bytes.ofText "time" ≠ Bytes.ofText "subnet" := by decide
  simp [stateTree, hcanister, htime]

theorem height_stateTree : (stateTree canister data time).height = 5 := rfl

variable (subnet : Subnet)

theorem lookup_subnetTree_key :
    (subnet.tree time).lookup (Delegation.keyPath subnet.id) = .found subnet.signer.publicKey := by
  have hranges : Bytes.ofText "canister_ranges" ≠ Bytes.ofText "public_key" := by decide
  have htime : Bytes.ofText "time" ≠ Bytes.ofText "subnet" := by decide
  cases h : subnet.ranges <;>
    simp [Subnet.tree, Delegation.keyPath, h, hranges, htime, lookup]

theorem lookup_subnetTree_ranges :
    (subnet.tree time).lookup (Delegation.rangesPath subnet.id) =
      .ofOption (subnet.ranges.map CanisterRange.encodeAll) := by
  have hkey : Bytes.ofText "public_key" ≠ Bytes.ofText "canister_ranges" := by decide
  have htime : Bytes.ofText "time" ≠ Bytes.ofText "subnet" := by decide
  cases h : subnet.ranges <;>
    simp [Subnet.tree, Delegation.rangesPath, h, hkey, htime, lookup, Answer.ofOption]

theorem height_subnetTree_le : (subnet.tree time).height ≤ 6 := by
  cases h : subnet.ranges <;> simp [Subnet.tree, h, height]

end Certified
