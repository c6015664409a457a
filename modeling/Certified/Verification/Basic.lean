import Certified.Verification.Delegation

/-!
Verification of a certified witness: the certificate is signed, it is recent, and the canister's
data in it is the root of the witness.
-/

namespace Certified

inductive TimeError where
  | tooFarInFuture (certificateMs nowMs : UInt64)
  | tooFarInPast (certificateMs nowMs : UInt64)
deriving DecidableEq

def TimeError.message : TimeError → String
  | .tooFarInFuture certificateMs nowMs => text certificateMs nowMs "future"
  | .tooFarInPast certificateMs nowMs => text certificateMs nowMs "past"
where
  text (certificateMs nowMs : UInt64) (direction : String) : String :=
    "Invalid certificate: time " ++ toString certificateMs.toNat ++ " is too far in the " ++
      direction ++ " (current time: " ++ toString nowMs.toNat ++ ")"

inductive VerificationError where
  | decode (cause : DecodeError)
  | time (cause : TimeError)
  | signature (cause : SignatureError)
  | delegation (cause : DelegationError)
  | dataMissing
  | rootMismatch
deriving DecidableEq

def VerificationError.message : VerificationError → String
  | .decode cause => "Decode error: " ++ cause.message
  | .time cause => cause.message
  | .signature cause => "Invalid certificate signature: " ++ cause.message
  | .delegation cause => "Invalid delegation: " ++ cause.message
  | .dataMissing => "Could not find certified data in the certificate"
  | .rootMismatch => "Tree root hash did not match the certified data in the certificate"

/-- An error of the time stands for itself; the others have what they wrap behind them. -/
def VerificationError.causes : VerificationError → List String
  | .decode cause => cause.message :: cause.causes
  | .signature cause => [cause.message]
  | .delegation cause => cause.message :: cause.causes
  | _ => []

/-- What the verifier trusts: a signature scheme, the root key, and how far a certificate's time may
be from the clock, in milliseconds. -/
structure Policy where
  check : SignatureCheck
  rootKey : Bytes
  maxOffset : UInt64

/-- What is shown to the verifier: a certificate and a witness for the data of a canister. -/
structure Evidence where
  canister : Principal
  certificate : Bytes
  witness : Bytes
deriving DecidableEq

namespace Certificate

/-- The key that must have signed the certificate. -/
def signingKey (policy : Policy) (canister : Principal) (c : Certificate) :
    Except VerificationError Bytes :=
  match c.delegation with
  | some d => (d.subnetKey policy.check policy.rootKey canister).mapError .delegation
  | none => .ok policy.rootKey

def checkSignature (policy : Policy) (canister : Principal) (c : Certificate) :
    Except VerificationError Unit := do
  let key ← c.signingKey policy canister
  (policy.check (signedMessage c.tree.root) c.signature key).mapError .signature

/-- Nanoseconds are cut off, and the offset is allowed on both sides. -/
def checkTime (maxOffset now : UInt64) (c : Certificate) : Except VerificationError Unit := do
  let nanos ← c.time.mapError .decode
  let ms := nanos / 1000000
  if now.toNat + maxOffset.toNat < ms.toNat then .error (.time (.tooFarInFuture ms now))
  else if ms.toNat + maxOffset.toNat < now.toNat then .error (.time (.tooFarInPast ms now))
  else return ()

def checkWitness (canister : Principal) (witness : HashTree) (c : Certificate) :
    Except VerificationError Unit :=
  match c.certifiedData canister with
  | .found value => if value = witness.root.bytes then .ok () else .error .rootMismatch
  | _ => .error .dataMissing

end Certificate

/-- The witness, if everything holds at the time `now`. The certificate and its signature come
first, then the witness can be read, then the time and the root are compared. -/
def verify (policy : Policy) (evidence : Evidence) (now : UInt64) :
    Except VerificationError HashTree := do
  let c ← (Certificate.decode evidence.certificate).mapError .decode
  c.checkSignature policy evidence.canister
  let witness ← (HashTree.decode evidence.witness).mapError .decode
  c.checkTime policy.maxOffset now
  c.checkWitness evidence.canister witness
  return witness

end Certified
