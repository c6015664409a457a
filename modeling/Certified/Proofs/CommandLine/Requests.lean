import Mathlib
import Certified.CommandLine.Commands
import Certified.Issuance
import Certified.Proofs.Verification.Acceptance

/-!
What a request is verified against, and what comes of it. Options that the request leaves open come from
the configuration. Once they are resolved the command accepts exactly what the library accepts, and it has
no errors but those of the library.
-/

namespace Certified

/-- The witness, if the evidence holds and, where a payload is expected, the witness certifies it. -/
def verifyExpected (policy : Policy) (evidence : Evidence) (expected : Option ExpectedPayload)
    (now : UInt64) : Except ResponseError HashTree :=
  match expected with
  | some expected => verifyResponse policy evidence expected now
  | none => (verify policy evidence now).mapError .verification

theorem verifyExpected_eq_ok_iff {policy : Policy} {evidence : Evidence}
    {expected : Option ExpectedPayload} {now : UInt64} {witness : HashTree} :
    verifyExpected policy evidence expected now = .ok witness ↔
      (∃ c, Accepted policy evidence now c witness) ∧
        ∀ e ∈ expected, witness.lookup [e.key] = .found (Digest.sha256 e.payload).bytes := by
  cases expected with
  | none => simp [verifyExpected, mapError_eq_ok_iff, verify_eq_ok_iff]
  | some expected => simp [verifyExpected, verifyResponse_eq_ok_iff]

/-- The command's error for an error of the library. -/
def CommandError.ofLibrary : ResponseError → CommandError
  | .verification cause => .verification cause
  | .notFound => .response .notFound
  | .hashMismatch => .response .hashMismatch

/-- A payload is refused because its key is not found or because its digest is another one. -/
theorem HashTree.checkPayload_eq_error {witness : HashTree} {expected : ExpectedPayload}
    {e : ResponseError} (h : witness.checkPayload expected = .error e) :
    e = .notFound ∨ e = .hashMismatch := by
  unfold checkPayload at h
  split at h
  · split at h
    · cases h
    · cases h
      exact .inr rfl
  · cases h
    exact .inl rfl

namespace Request

/-- The root key of a request: its own, or else the one of the configuration, or the empty one where
signatures are not checked. -/
inductive ResolvesKey (request : Request) (config : Config) : Bytes → Prop where
  | given {key : Bytes} (own : request.rootKey = some key) : ResolvesKey request config key
  | configured {text : String} {key : Bytes} (missing : request.rootKey = none)
    (held : config.rootKey = some text) (hex : Hex.decode (Text.Blank.trim text) = .ok key) :
    ResolvesKey request config key
  | unchecked (missing : request.rootKey = none) (notHeld : config.rootKey = none)
    (scheme : config.scheme = .none) : ResolvesKey request config []

/-- The canister that a request is about and the policy it is verified under. -/
structure Resolves (request : Request) (config : Config) (canister : Principal) (policy : Policy) :
    Prop where
  canister : request.canister.or config.canister = some canister
  check : policy.check = config.scheme.check
  rootKey : request.ResolvesKey config policy.rootKey
  maxOffset : policy.maxOffset = request.maxOffset.getD config.maxOffset

/-- Why a request cannot be verified: no canister, or no root key that can be read. -/
inductive Unresolved (request : Request) (config : Config) : CommandError → Prop where
  | noCanister (none : request.canister.or config.canister = none) :
    Unresolved request config .missingCanister
  | unreadableKey {canister : Principal} {text : String} {cause : Hex.DecodeError}
    (canister : request.canister.or config.canister = some canister)
    (missing : request.rootKey = none) (held : config.rootKey = some text)
    (hex : Hex.decode (Text.Blank.trim text) = .error cause) :
    Unresolved request config (.config (.invalidRootKey cause))
  | noKey {canister : Principal} (canister : request.canister.or config.canister = some canister)
    (missing : request.rootKey = none) (notHeld : config.rootKey = none)
    (scheme : config.scheme ≠ .none) : Unresolved request config .missingRootKey

section

variable {request : Request} {config : Config} {canister : Principal} {policy : Policy} {now : UInt64}
  {e : CommandError}

theorem canisterFor_eq_ok_iff :
    request.canisterFor config = .ok canister ↔ request.canister.or config.canister = some canister := by
  unfold canisterFor
  cases request.canister.or config.canister <;> simp

theorem canisterFor_eq_error_iff :
    request.canisterFor config = .error e ↔
      request.canister.or config.canister = none ∧ e = .missingCanister := by
  unfold canisterFor
  cases request.canister.or config.canister <;> simp [eq_comm]

theorem rootKeyFor_eq_ok_iff {key : Bytes} :
    request.rootKeyFor config = .ok key ↔ request.ResolvesKey config key := by
  constructor
  · intro h
    unfold rootKeyFor at h
    split at h
    · rename_i own
      cases h
      exact .given own
    · rename_i missing
      obtain ⟨found, read, h⟩ := bind_eq_ok_iff.mp h
      have read := mapError_eq_ok_iff.mp read
      unfold Config.rootKeyBytes at read
      split at read
      · rename_i held
        obtain ⟨bytes, hex, rfl⟩ := map_eq_ok_iff.mp (mapError_eq_ok_iff.mp read)
        cases h
        exact .configured missing held hex
      · rename_i notHeld
        cases read
        by_cases scheme : config.scheme = .none
        · simp only [scheme, if_true] at h
          cases h
          exact .unchecked missing notHeld scheme
        · simp [scheme] at h
  · intro h
    cases h with
    | given own => simp [rootKeyFor, own]
    | configured missing held hex => simp [rootKeyFor, missing, Config.rootKeyBytes, held, hex, Except.map]
    | unchecked missing notHeld scheme => simp [rootKeyFor, missing, Config.rootKeyBytes, notHeld, scheme]

/-- A root key is refused only if it is the configuration's: it cannot be read, or it is not there. -/
theorem rootKeyFor_eq_error_iff :
    request.rootKeyFor config = .error e ↔ request.rootKey = none ∧
      ((∃ text cause, config.rootKey = some text ∧ Hex.decode (Text.Blank.trim text) = .error cause ∧
          e = .config (.invalidRootKey cause)) ∨
        (config.rootKey = none ∧ config.scheme ≠ .none ∧ e = .missingRootKey)) := by
  unfold rootKeyFor Config.rootKeyBytes
  cases own : request.rootKey with
  | some key => simp
  | none =>
    cases held : config.rootKey with
    | some text =>
      cases hex : Hex.decode (Text.Blank.trim text) with
      | ok key => simp [Except.map, hex]
      | error cause => simp [Except.map, hex, eq_comm]
    | none =>
      by_cases scheme : config.scheme = .none
      · simp [scheme]
      · simp [scheme, eq_comm]

theorem policyFor_eq_ok_iff :
    request.policyFor config = .ok policy ↔ policy.check = config.scheme.check ∧
      request.ResolvesKey config policy.rootKey ∧
      policy.maxOffset = request.maxOffset.getD config.maxOffset := by
  simp only [policyFor, bind_eq_ok_iff, rootKeyFor_eq_ok_iff]
  constructor
  · rintro ⟨key, resolved, made⟩
    cases made
    exact ⟨rfl, resolved, rfl⟩
  · rintro ⟨check, resolved, offset⟩
    exact ⟨policy.rootKey, resolved, by rw [← check, ← offset]; rfl⟩

theorem resolves_iff : request.Resolves config canister policy ↔
    request.canisterFor config = .ok canister ∧ request.policyFor config = .ok policy := by
  rw [canisterFor_eq_ok_iff, policyFor_eq_ok_iff]
  constructor
  · intro h
    exact ⟨h.canister, h.check, h.rootKey, h.maxOffset⟩
  · rintro ⟨canister, check, rootKey, maxOffset⟩
    exact ⟨canister, check, rootKey, maxOffset⟩

theorem unresolved_iff : request.Unresolved config e ↔ request.canisterFor config = .error e ∨
    ∃ canister, request.canisterFor config = .ok canister ∧ request.policyFor config = .error e := by
  have policy : request.policyFor config = .error e ↔ request.rootKeyFor config = .error e := by
    simp [policyFor, bind_eq_error_iff]
  simp only [canisterFor_eq_ok_iff, canisterFor_eq_error_iff, policy, rootKeyFor_eq_error_iff]
  constructor
  · intro h
    cases h with
    | noCanister none => exact .inl ⟨none, rfl⟩
    | unreadableKey canister missing held hex =>
      exact .inr ⟨_, canister, missing, .inl ⟨_, _, held, hex, rfl⟩⟩
    | noKey canister missing notHeld scheme =>
      exact .inr ⟨_, canister, missing, .inr ⟨notHeld, scheme, rfl⟩⟩
  · rintro (⟨none, rfl⟩ | ⟨canister, found, missing, h⟩)
    · exact .noCanister none
    · rcases h with ⟨text, cause, held, hex, rfl⟩ | ⟨notHeld, scheme, rfl⟩
      · exact .unreadableKey found missing held hex
      · exact .noKey found missing notHeld scheme

/-- A request resolves to a canister and a policy, or it cannot be verified for one of the reasons. -/
theorem resolves_or_unresolved (request : Request) (config : Config) :
    (∃ canister policy, request.Resolves config canister policy) ∨
      ∃ e, request.Unresolved config e := by
  simp only [resolves_iff, unresolved_iff]
  cases request.canisterFor config with
  | error e => exact .inr ⟨e, .inl rfl⟩
  | ok canister =>
    cases request.policyFor config with
    | error e => exact .inr ⟨e, .inr ⟨canister, rfl, rfl⟩⟩
    | ok policy => exact .inl ⟨canister, policy, rfl, rfl⟩

theorem verify_of_unresolved (h : request.Unresolved config e) : request.verify config now = .error e := by
  rcases unresolved_iff.mp h with noCanister | ⟨canister, found, noPolicy⟩
  · simp [verify, noCanister]
  · simp [verify, found, noPolicy]

/-- What stands behind a report: the request resolves, and its evidence is accepted with a witness that
certifies the payload, if one is expected. -/
structure Backed (request : Request) (config : Config) (now : UInt64) (canister : Principal)
    (policy : Policy) (c : Certificate) (time : UInt64) (witness : HashTree) : Prop where
  resolved : request.Resolves config canister policy
  accepted : Accepted policy (request.evidence canister) now c witness
  expected : ∀ expected ∈ request.expected,
    witness.lookup [expected.key] = .found (Digest.sha256 expected.payload).bytes
  time : c.time = .ok time

/-- The command runs the library's checks one after the other, then reads the certificate once more. -/
theorem verify_eq (resolved : request.Resolves config canister policy) :
    request.verify config now = (do
      let witness ← (verifyExpected policy (request.evidence canister) request.expected now).mapError
        CommandError.ofLibrary
      let c ← (Certificate.decode request.certificate).mapError .decode
      let time ← c.time.mapError .decode
      return request.reportOf config canister c time witness) := by
  obtain ⟨found, made⟩ := resolves_iff.mp resolved
  cases asked : request.expected with
  | none =>
    simp only [verify, found, made, ok_bind, asked, verifyExpected]
    cases Certified.verify policy (request.evidence canister) now with
    | error cause => rfl
    | ok witness => simp [reportOf, asked]
  | some expected =>
    simp only [verify, found, made, ok_bind, asked, verifyExpected, verifyResponse]
    cases Certified.verify policy (request.evidence canister) now with
    | error cause => rfl
    | ok witness =>
      cases payload : witness.checkPayload expected with
      | ok => simp [payload, reportOf, asked]
      | error e =>
        rcases HashTree.checkPayload_eq_error payload with rfl | rfl <;>
          simp [payload, CommandError.ofLibrary]

theorem verify_of_error {cause : ResponseError} (resolved : request.Resolves config canister policy)
    (h : verifyExpected policy (request.evidence canister) request.expected now = .error cause) :
    request.verify config now = .error (.ofLibrary cause) := by
  simp [verify_eq resolved, h]

/-- The certificate was decoded and its time was read when the library accepted them, so reading them once
more does not fail. -/
theorem verify_of_ok {witness : HashTree} (resolved : request.Resolves config canister policy)
    (h : verifyExpected policy (request.evidence canister) request.expected now = .ok witness) :
    ∃ c time, request.Backed config now canister policy c time witness ∧
      request.verify config now = .ok (request.reportOf config canister c time witness) := by
  obtain ⟨⟨c, accepted⟩, expected⟩ := verifyExpected_eq_ok_iff.mp h
  obtain ⟨time, read, _⟩ := accepted.timely
  have decoded : Certificate.decode request.certificate = .ok c := accepted.decoded
  refine ⟨c, time, ⟨resolved, accepted, expected, read⟩, ?_⟩
  simp [verify_eq resolved, h, decoded, read]

/-- Behind every report stands a request that resolves and evidence that is accepted. -/
theorem verify_eq_ok_iff {report : VerificationReport} :
    request.verify config now = .ok report ↔ ∃ canister policy c time witness,
      request.Backed config now canister policy c time witness ∧
        report = request.reportOf config canister c time witness := by
  constructor
  · intro h
    rcases resolves_or_unresolved request config with ⟨canister, policy, resolved⟩ | ⟨e, unresolved⟩
    · cases checked : verifyExpected policy (request.evidence canister) request.expected now with
      | error cause =>
        rw [verify_of_error resolved checked] at h
        cases h
      | ok witness =>
        obtain ⟨c, time, backed, made⟩ := verify_of_ok resolved checked
        rw [made] at h
        cases h
        exact ⟨canister, policy, c, time, witness, backed, rfl⟩
    · rw [verify_of_unresolved unresolved] at h
      cases h
  · rintro ⟨canister, policy, c, time, witness, backed, rfl⟩
    have checked := verifyExpected_eq_ok_iff.mpr ⟨⟨c, backed.accepted⟩, backed.expected⟩
    have decoded : Certificate.decode request.certificate = .ok c := backed.accepted.decoded
    simp [verify_eq backed.resolved, checked, decoded, backed.time]

/-- A command fails because its request does not resolve, or with the library's error. -/
theorem verify_eq_error {e : CommandError} (h : request.verify config now = .error e) :
    request.Unresolved config e ∨ ∃ cause, e = .ofLibrary cause := by
  rcases resolves_or_unresolved request config with ⟨canister, policy, resolved⟩ | ⟨e', unresolved⟩
  · cases checked : verifyExpected policy (request.evidence canister) request.expected now with
    | error cause =>
      rw [verify_of_error resolved checked] at h
      cases h
      exact .inr ⟨cause, rfl⟩
    | ok witness =>
      obtain ⟨c, time, _, made⟩ := verify_of_ok resolved checked
      rw [made] at h
      cases h
  · rw [verify_of_unresolved unresolved] at h
    cases h
    exact .inl unresolved

end

/-- A request that does not resolve ends with the reason for it, whatever its certificate, witness and
payload are. One that resolves is accepted exactly if the library accepts it for the canister and under
the policy, and otherwise ends with the library's error. There are no other errors: what was decoded once
is decoded again. -/
theorem verify_as_library (request : Request) (config : Config) (now : UInt64) :
    (∀ e, request.Unresolved config e → ∀ certificate witness expected,
      ({ request with certificate, witness, expected } : Request).verify config now = .error e) ∧
    (∀ canister policy, request.Resolves config canister policy →
      ((∃ report, request.verify config now = .ok report) ↔ ∃ witness,
        verifyExpected policy (request.evidence canister) request.expected now = .ok witness) ∧
      (∀ e, request.verify config now = .error e ↔ ∃ cause,
        verifyExpected policy (request.evidence canister) request.expected now = .error cause ∧
          e = .ofLibrary cause) ∧
      (∀ witness, Certified.verify policy (request.evidence canister) now = .ok witness →
        ∃ c time, Certificate.decode request.certificate = .ok c ∧ c.time = .ok time)) ∧
    ((∃ canister policy, request.Resolves config canister policy) ∨
      ∃ e, request.Unresolved config e) ∧
    (∀ e, request.verify config now = .error e →
      (∀ cause, e ≠ .decode cause) ∧ (∀ cause, e ≠ .file cause) ∧ ∀ cause, e ≠ .label cause) := by
  refine ⟨?_, ?_, resolves_or_unresolved request config, ?_⟩
  · intro e unresolved certificate witness expected
    apply verify_of_unresolved
    cases unresolved with
    | noCanister none => exact .noCanister none
    | unreadableKey canister missing held hex => exact .unreadableKey canister missing held hex
    | noKey canister missing notHeld scheme => exact .noKey canister missing notHeld scheme
  · intro canister policy resolved
    refine ⟨?_, ?_, ?_⟩
    · cases checked : verifyExpected policy (request.evidence canister) request.expected now with
      | error cause => simp [verify_of_error resolved checked]
      | ok witness =>
        obtain ⟨c, time, _, made⟩ := verify_of_ok resolved checked
        simp [made]
    · intro e
      cases checked : verifyExpected policy (request.evidence canister) request.expected now with
      | error cause => simp [verify_of_error resolved checked, eq_comm]
      | ok witness =>
        obtain ⟨c, time, _, made⟩ := verify_of_ok resolved checked
        simp [made]
    · intro witness h
      obtain ⟨c, accepted⟩ := Certified.verify_eq_ok_iff.mp h
      obtain ⟨time, read, _⟩ := accepted.timely
      exact ⟨c, time, accepted.decoded, read⟩
  · intro e h
    rcases verify_eq_error h with unresolved | ⟨cause, rfl⟩
    · cases unresolved <;> simp
    · cases cause <;> simp [CommandError.ofLibrary]

namespace Sample

/-- The payload `[2]` under the key `[1]`, and an entry that is pruned. -/
def witness : HashTree :=
  .fork (.labeled [1] (.leaf (Digest.sha256 [2]).bytes)) (HashTree.labeled [3] (.leaf [])).prune

def certificate : Certificate where
  tree := stateTree Principal.management witness.root 1000000
  signature := []
  delegation := none

def request : Request where
  certificate := certificate.encode
  witness := witness.encode
  canister := some Principal.management
  expected := some { key := [1], payload := [2] }

/-- Signatures are not checked. -/
def config : Config where
  scheme := .none
  maxOffset := 0

def policy : Policy where
  check := SignatureCheck.none
  rootKey := []
  maxOffset := 0

theorem resolves : request.Resolves config Principal.management policy where
  canister := rfl
  check := rfl
  rootKey := .unchecked rfl rfl rfl
  maxOffset := rfl

theorem verifyExpected_eq :
    verifyExpected policy (request.evidence Principal.management) request.expected 1 = .ok witness := by
  decide +kernel

theorem verifyExpected_late :
    verifyExpected policy (request.evidence Principal.management) request.expected 2 =
      .error (.verification (.time (.tooFarInPast 1 2))) := by
  decide +kernel

end Sample

/-- One request that is accepted, later no more, and without a key once signatures are checked. -/
theorem verify_as_library_sample :
    Sample.request.Resolves Sample.config Principal.management Sample.policy ∧
    (∃ report, Sample.request.verify Sample.config 1 = .ok report) ∧
    Sample.request.verify Sample.config 2 =
      .error (.verification (.time (.tooFarInPast 1 2))) ∧
    Sample.request.Unresolved { Sample.config with scheme := .ed25519 } .missingRootKey ∧
    Sample.request.verify { Sample.config with scheme := .ed25519 } 1 = .error .missingRootKey := by
  have unresolved : Sample.request.Unresolved { Sample.config with scheme := .ed25519 } .missingRootKey :=
    .noKey rfl rfl rfl (by decide)
  obtain ⟨_, inTime, _⟩ := verify_as_library Sample.request Sample.config 1
  obtain ⟨_, late, _⟩ := verify_as_library Sample.request Sample.config 2
  obtain ⟨withoutKey, _⟩ :=
    verify_as_library Sample.request { Sample.config with scheme := .ed25519 } 1
  refine ⟨Sample.resolves, ?_, ?_, unresolved, ?_⟩
  · exact (inTime _ _ Sample.resolves).1.mpr ⟨Sample.witness, Sample.verifyExpected_eq⟩
  · exact ((late _ _ Sample.resolves).2.1 _).mpr ⟨_, Sample.verifyExpected_late, rfl⟩
  · exact withoutKey _ unresolved _ _ _

end Request
end Certified
