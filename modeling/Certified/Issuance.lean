import Certified.CanisterRange
import Certified.Certificate.Encoding
import Certified.Signature

/-!
Issuing certificates: a network signs state trees with its root key, or delegates to a subnet that
signs with its own.
-/

namespace Certified

/-- The state tree that certifies the data of one canister at a time in nanoseconds. -/
def stateTree (canister : Principal) (data : Digest) (time : UInt64) : HashTree :=
  .fork
    (.labeled (Bytes.ofText "canister")
      (.labeled canister.bytes (.labeled (Bytes.ofText "certified_data") (.leaf data.bytes))))
    (.labeled (Bytes.ofText "time") (.leaf (Leb128.write time)))

/-- A subnet with its own key, and the canisters it answers for if these are restricted. -/
structure Subnet where
  id : Bytes
  signer : Signer
  ranges : Option (List CanisterRange)

/-- The state tree in which the root key vouches for a subnet. -/
def Subnet.tree (subnet : Subnet) (time : UInt64) : HashTree :=
  let key := .labeled (Bytes.ofText "public_key") (.leaf subnet.signer.publicKey)
  let entries := match subnet.ranges with
    | some ranges =>
      .fork (.labeled (Bytes.ofText "canister_ranges") (.leaf (CanisterRange.encodeAll ranges))) key
    | none => key
  .fork
    (.labeled (Bytes.ofText "subnet") (.labeled subnet.id entries))
    (.labeled (Bytes.ofText "time") (.leaf (Leb128.write time)))

namespace Signer

def signTree (signer : Signer) (tree : HashTree) : Bytes :=
  signer.sign (signedMessage tree.root)

def certificate (signer : Signer) (tree : HashTree) : Certificate :=
  { tree, signature := signer.signTree tree, delegation := none }

/-- The encoded certificate that the root key signs for the data of a canister. -/
def certify (root : Signer) (canister : Principal) (data : Digest) (time : UInt64) : Bytes :=
  (root.certificate (stateTree canister data time)).encode

def delegate (root : Signer) (subnet : Subnet) (time : UInt64) : Delegation :=
  { subnetId := subnet.id
    certificate := (root.certificate (subnet.tree time)).encode }

/-- The encoded certificate that a subnet signs under a delegation of the root key. -/
def certifyDelegated (root : Signer) (subnet : Subnet) (canister : Principal) (data : Digest)
    (time : UInt64) : Bytes :=
  { subnet.signer.certificate (stateTree canister data time) with
    delegation := some (root.delegate subnet time) : Certificate }.encode

end Signer
end Certified
