import Certified.Log
import Certified.Verification.Response

/-!
Verification with its log. Each step logs what it has found out; a check of a signature logs what its scheme has
to say about it, every time it is made.
-/

namespace Certified

namespace LogEvent

def unchecked : LogEvent where
  level := .warn
  target := "icv_core::signature"
  message := "Certificate signature not checked"

def subnetKey (key : Bytes) : LogEvent where
  level := .debug
  target := "icv_core::signature"
  message := "Using delegated subnet key (" ++ toString key.length ++ " bytes)"

def timely (certificateMs maxOffset now : UInt64) : LogEvent where
  level := .debug
  target := "icv_core::verify"
  message := "Certificate time " ++ toString certificateMs.toNat ++ " ms within " ++
    toString maxOffset.toNat ++ " ms of " ++ toString now.toNat

def witness (canister : Principal) : LogEvent where
  level := .debug
  target := "icv_core::verify"
  message := "Verified witness for canister " ++ canister.toText

def keyLookup (answer : String) : LogEvent where
  level := .debug
  target := "icv_core::response"
  message := "Response key lookup returned " ++ answer

end LogEvent

/-- A check that logs these events each time it is made. -/
def SignatureCheck.logged (check : SignatureCheck) (notices : List LogEvent)
    (message signature key : Bytes) : Logged SignatureError Unit :=
  { result := check message signature key, log := notices }

def Delegation.subnetKeyLogged (check : SignatureCheck) (notices : List LogEvent) (rootKey : Bytes)
    (canister : Principal) (d : Delegation) : Logged DelegationError Bytes := do
  let c ← .silent ((Certificate.decode d.certificate).mapError .malformed)
  .silent (if c.delegation.isSome then .error .nested else .ok ())
  (check.logged notices (signedMessage c.tree.root) c.signature rootKey).mapError .signature
  .silent (checkRanges c d.subnetId canister)
  let key ← .silent (match c.tree.lookup (keyPath d.subnetId) with
    | .found key => .ok key
    | _ => .error .missingKey)
  .note [.subnetKey key]
  return key

namespace Certificate

def signingKeyLogged (policy : Policy) (notices : List LogEvent) (canister : Principal)
    (c : Certificate) : Logged VerificationError Bytes :=
  match c.delegation with
  | some d => (d.subnetKeyLogged policy.check notices policy.rootKey canister).mapError .delegation
  | none => pure policy.rootKey

def checkSignatureLogged (policy : Policy) (notices : List LogEvent) (canister : Principal)
    (c : Certificate) : Logged VerificationError Unit := do
  let key ← c.signingKeyLogged policy notices canister
  (policy.check.logged notices (signedMessage c.tree.root) c.signature key).mapError .signature

def checkTimeLogged (maxOffset now : UInt64) (c : Certificate) : Logged VerificationError Unit := do
  .silent (c.checkTime maxOffset now)
  let nanos ← .silent (c.time.mapError .decode)
  .note [.timely (nanos / 1000000) maxOffset now]

end Certificate

def verifyLogged (policy : Policy) (notices : List LogEvent) (evidence : Evidence) (now : UInt64) :
    Logged VerificationError HashTree := do
  let c ← .silent ((Certificate.decode evidence.certificate).mapError .decode)
  c.checkSignatureLogged policy notices evidence.canister
  let witness ← .silent ((HashTree.decode evidence.witness).mapError .decode)
  c.checkTimeLogged policy.maxOffset now
  .silent (c.checkWitness evidence.canister witness)
  .note [.witness evidence.canister]
  return witness

/-- An answer that is no value is logged. -/
def HashTree.checkPayloadLogged (witness : HashTree) (expected : ExpectedPayload) :
    Logged ResponseError Unit where
  result := witness.checkPayload expected
  log :=
    match witness.lookup [expected.key] with
    | .found _ => []
    | .absent => [.keyLookup "Absent"]
    | .unknown => [.keyLookup "Unknown"]
    | .error => [.keyLookup "Error"]

end Certified
