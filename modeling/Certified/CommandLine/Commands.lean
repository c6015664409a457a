import Certified.Config.Basic
import Certified.Report.Summary
import Certified.Report.Verification
import Certified.Verification.Log

/-!
What the commands answer, and what they log. Options that a request leaves open are taken from the
configuration.
-/

namespace Certified

inductive CommandError where
  | label (cause : LabelError)
  | file (cause : FileError)
  | config (cause : ConfigError)
  | decode (cause : DecodeError)
  | verification (cause : VerificationError)
  | response (cause : ResponseError)
  | missingCanister
  | missingRootKey
deriving DecidableEq

def CommandError.message : CommandError → String
  | .label cause => cause.message
  | .file cause => "I/O error: " ++ cause.message
  | .config cause => cause.message
  | .decode cause => "Decode error: " ++ cause.message
  | .verification cause => "Verification failed: " ++ cause.message
  | .response cause => "Response check failed: " ++ cause.message
  | .missingCanister => "No canister id given (use --canister-id or set verification.canister_id)"
  | .missingRootKey => "No root key given (use --root-key, set trust.root_key or ICV_ROOT_KEY)"

def CommandError.causes : CommandError → List String
  | .label cause => cause.causes
  | .file cause => [cause.message]
  | .config cause => cause.causes
  | .decode cause => cause.message :: cause.causes
  | .verification cause => cause.message :: cause.causes
  | .response cause => cause.message :: cause.causes
  | .missingCanister | .missingRootKey => []

/-- What is to be verified. -/
structure Request where
  certificate : Bytes
  witness : Bytes
  canister : Option Principal := none
  rootKey : Option Bytes := none
  maxOffset : Option UInt64 := none
  expected : Option ExpectedPayload := none
deriving DecidableEq

namespace Request

/-- The canister of the request, or else of the configuration. -/
def canisterFor (request : Request) (config : Config) : Except CommandError Principal :=
  match request.canister.or config.canister with
  | some canister => .ok canister
  | none => .error .missingCanister

/-- The root key of the request, or else of the configuration. Where signatures are not checked there
need not be one. -/
def rootKeyFor (request : Request) (config : Config) : Except CommandError Bytes :=
  match request.rootKey with
  | some key => .ok key
  | none => do
    match ← config.rootKeyBytes.mapError .config with
    | some key => return key
    | none => if config.scheme = .none then return [] else .error .missingRootKey

def policyFor (request : Request) (config : Config) : Except CommandError Policy := do
  let rootKey ← request.rootKeyFor config
  return {
    check := config.scheme.check
    rootKey
    maxOffset := request.maxOffset.getD config.maxOffset }

def evidence (request : Request) (canister : Principal) : Evidence :=
  { canister, certificate := request.certificate, witness := request.witness }

/-- The report on a request that has been verified. -/
def reportOf (request : Request) (config : Config) (canister : Principal) (c : Certificate)
    (time : UInt64) (witness : HashTree) : VerificationReport :=
  { canister
    time
    data := witness.root
    subnetId := c.delegation.map (·.subnetId)
    signatureChecked := config.scheme ≠ .none
    responseKey := request.expected.map (·.key)
    leaves := witness.listing }

/-- Verifies the request at the time `now` in milliseconds since 1970. -/
def verify (request : Request) (config : Config) (now : UInt64) :
    Except CommandError VerificationReport := do
  let canister ← request.canisterFor config
  let policy ← request.policyFor config
  let witness ← (Certified.verify policy (request.evidence canister) now).mapError .verification
  match request.expected with
  | some expected => (witness.checkPayload expected).mapError .response
  | none => .ok ()
  let c ← (Certificate.decode request.certificate).mapError .decode
  let time ← c.time.mapError .decode
  return request.reportOf config canister c time witness

end Request

/-! ### With a log -/

namespace LogEvent

def clockBehind (clock : Int64) : LogEvent where
  level := .warn
  target := "icv_core::verify"
  message := "Local clock is before the UNIX epoch (" ++ toString clock.toInt ++ " ms); using 0"

def verifying (canister : Principal) (now : UInt64) : LogEvent where
  level := .debug
  target := "icv_cli::commands"
  message := "Verifying for canister " ++ canister.toText ++ " at " ++ toString now.toNat ++ " ms"

def verified (canister : Principal) : LogEvent where
  level := .info
  target := "icv_cli::commands"
  message := "Verified certified data of canister " ++ canister.toText

end LogEvent

/-- What a scheme logs whenever it checks a signature. -/
def SignatureScheme.notices : SignatureScheme → List LogEvent
  | .ed25519 => []
  | .none => [.unchecked]

/-- The milliseconds since 1970 that a clock shows; before that it shows none. -/
def clockMillis (clock : Int64) : UInt64 :=
  if clock < 0 then 0 else clock.toUInt64

/-- The given time, or else that of the clock. -/
def timeLogged (given : Option UInt64) (clock : Int64) : Logged CommandError UInt64 :=
  match given with
  | some now => pure now
  | none => { result := .ok (clockMillis clock), log := if clock < 0 then [.clockBehind clock] else [] }

namespace Request

def checkExpectedLogged (request : Request) (witness : HashTree) : Logged CommandError Unit :=
  match request.expected with
  | some expected => (witness.checkPayloadLogged expected).mapError .response
  | none => pure ()

/-- Verifies the request at the given time, or else at the time of the clock. -/
def verifyLogged (request : Request) (config : Config) (given : Option UInt64) (clock : Int64) :
    Logged CommandError VerificationReport := do
  let canister ← .silent (request.canisterFor config)
  let policy ← .silent (request.policyFor config)
  let now ← timeLogged given clock
  .note [.verifying canister now]
  let witness ← (Certified.verifyLogged policy config.scheme.notices (request.evidence canister)
    now).mapError .verification
  request.checkExpectedLogged witness
  let c ← .silent ((Certificate.decode request.certificate).mapError .decode)
  let time ← .silent (c.time.mapError .decode)
  .note [.verified canister]
  return request.reportOf config canister c time witness

end Request

/-- The answer to a path as text: the value in hexadecimal, or one word. -/
def Answer.text : Answer → String
  | .found value => Hex.encode value
  | .absent => "absent"
  | .unknown => "unknown"
  | .error => "error"

def lookupWitness (witness : Bytes) (path : List Label) : Except CommandError String := do
  let tree ← (HashTree.decode witness).mapError .decode
  return (tree.lookup path).text

def witnessRoot (witness : Bytes) : Except CommandError Digest := do
  let tree ← (HashTree.decode witness).mapError .decode
  return tree.root

def inspectCertificate (certificate : Bytes) : Except CommandError CertificateSummary := do
  let c ← (Certificate.decode certificate).mapError .decode
  return c.summary

end Certified
