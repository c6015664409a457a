import Certified.CanisterRange
import Certified.Certificate.Encoding
import Certified.Signature

/-!
Delegations: the root key vouches for the key of a subnet, for the canisters in its ranges.
-/

namespace Certified

inductive DelegationError where
  | nested
  | malformed (cause : DecodeError)
  | signature (cause : SignatureError)
  | missingKey
  | outOfRange (canister : Principal)
deriving DecidableEq

def DelegationError.message : DelegationError → String
  | .nested => "Delegation certificate is itself delegated"
  | .malformed cause => "Malformed delegation: " ++ cause.message
  | .signature cause => "Invalid delegation signature: " ++ cause.message
  | .missingKey => "Subnet public key not found in delegation certificate"
  | .outOfRange canister =>
    "Canister " ++ canister.toText ++ " is outside the canister ranges of the delegated subnet"

def DelegationError.causes : DelegationError → List String
  | .malformed cause => cause.message :: cause.causes
  | .signature cause => [cause.message]
  | _ => []

namespace Delegation

def rangesPath (subnetId : Bytes) : List Label :=
  [Bytes.ofText "subnet", subnetId, Bytes.ofText "canister_ranges"]

def keyPath (subnetId : Bytes) : List Label :=
  [Bytes.ofText "subnet", subnetId, Bytes.ofText "public_key"]

/-- Ranges that are found must hold the canister; where none are found there is no restriction. -/
def checkRanges (c : Certificate) (subnetId : Bytes) (canister : Principal) :
    Except DelegationError Unit :=
  match c.tree.lookup (rangesPath subnetId) with
  | .found value => do
    let ranges ← (CanisterRange.decodeAll value).mapError .malformed
    if ranges.any (·.contains canister.bytes) then return ()
    else .error (.outOfRange canister)
  | _ => .ok ()

/-- The subnet's key, once the root key has signed the delegation and the ranges admit the canister. -/
def subnetKey (check : SignatureCheck) (rootKey : Bytes) (canister : Principal) (d : Delegation) :
    Except DelegationError Bytes := do
  let c ← (Certificate.decode d.certificate).mapError .malformed
  if c.delegation.isSome then .error .nested
  (check (signedMessage c.tree.root) c.signature rootKey).mapError .signature
  checkRanges c d.subnetId canister
  match c.tree.lookup (keyPath d.subnetId) with
  | .found key => return key
  | _ => .error .missingKey

end Delegation
end Certified
