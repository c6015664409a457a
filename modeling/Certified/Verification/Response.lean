import Certified.Verification.Basic

/-!
Certified responses: the witness holds the SHA-256 digest of the response's payload under a key.
-/

namespace Certified

inductive ResponseError where
  | verification (cause : VerificationError)
  | notFound
  | hashMismatch
deriving DecidableEq

def ResponseError.message : ResponseError → String
  | .verification cause => cause.message
  | .notFound => "Response key not found in the witness"
  | .hashMismatch => "Response payload does not match the certified hash"

def ResponseError.causes : ResponseError → List String
  | .verification cause => cause.causes
  | _ => []

/-- A payload that must be certified under a key. -/
structure ExpectedPayload where
  key : Label
  payload : Bytes
deriving DecidableEq

def HashTree.checkPayload (witness : HashTree) (expected : ExpectedPayload) :
    Except ResponseError Unit :=
  match witness.lookup [expected.key] with
  | .found value =>
    if value = (Digest.sha256 expected.payload).bytes then .ok () else .error .hashMismatch
  | _ => .error .notFound

/-- The witness, if the evidence holds and the witness certifies the payload. -/
def verifyResponse (policy : Policy) (evidence : Evidence) (expected : ExpectedPayload)
    (now : UInt64) : Except ResponseError HashTree := do
  let witness ← (verify policy evidence now).mapError .verification
  witness.checkPayload expected
  return witness

/-- A response with the certificate and the witness that prove it. -/
structure CertifiedResponse where
  response : String
  certificate : Bytes
  witness : Bytes
deriving DecidableEq

def CertifiedResponse.evidence (r : CertifiedResponse) (canister : Principal) : Evidence :=
  { canister, certificate := r.certificate, witness := r.witness }

end Certified
