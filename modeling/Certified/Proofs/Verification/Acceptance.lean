import Certified.Verification.Response
import Certified.Proofs.Verification.Delegation
import Certified.Proofs.Verification.Window

/-!
What evidence must hold so that a witness is accepted, and which error it ends with when it does not:
that of the first check that fails.
-/

namespace Certified

/-- The keys that may have signed a certificate: the root key, or where the certificate is delegated a
key that the delegation authorizes for the canister. -/
inductive SigningKey (policy : Policy) (canister : Principal) (c : Certificate) : Bytes → Prop where
  | root (direct : c.delegation = none) : SigningKey policy canister c policy.rootKey
  | subnet {d : Delegation} {dc : Certificate} {key : Bytes} (delegated : c.delegation = some d)
    (authorized : d.Authorizes policy.check policy.rootKey canister dc key) :
    SigningKey policy canister c key

/-- The evidence spells a certificate, and a key that may have signed it did. -/
structure Signed (policy : Policy) (evidence : Evidence) (c : Certificate) : Prop where
  decoded : Certificate.decode evidence.certificate = .ok c
  signed : ∃ key, SigningKey policy evidence.canister c key ∧
    policy.check (domainSeparator "ic-state-root" ++ c.tree.root.bytes) c.signature key = .ok ()

/-- All that a witness needs to be accepted at the time `now`. -/
structure Accepted (policy : Policy) (evidence : Evidence) (now : UInt64) (c : Certificate)
    (witness : HashTree) : Prop extends Signed policy evidence c where
  shown : HashTree.decode evidence.witness = .ok witness
  timely : ∃ nanos, c.time = .ok nanos ∧ Timely policy.maxOffset now nanos
  certified : c.tree.lookup (Certificate.dataPath evidence.canister) = .found witness.root.bytes

/-- The errors that evidence can end with, each with the checks that passed before. -/
inductive Rejected (policy : Policy) (evidence : Evidence) (now : UInt64) :
    VerificationError → Prop where
  | undecodable {cause : DecodeError} (decoded : Certificate.decode evidence.certificate = .error cause) :
    Rejected policy evidence now (.decode cause)
  | unauthorized {c : Certificate} {d : Delegation} {cause : DelegationError}
    (decoded : Certificate.decode evidence.certificate = .ok c) (delegated : c.delegation = some d)
    (refused : d.Refused policy.check policy.rootKey evidence.canister cause) :
    Rejected policy evidence now (.delegation cause)
  | unsigned {c : Certificate} {key : Bytes} {cause : SignatureError}
    (decoded : Certificate.decode evidence.certificate = .ok c)
    (signer : SigningKey policy evidence.canister c key)
    (signed : policy.check (domainSeparator "ic-state-root" ++ c.tree.root.bytes) c.signature key =
      .error cause) : Rejected policy evidence now (.signature cause)
  | unreadable {c : Certificate} {cause : DecodeError} (signed : Signed policy evidence c)
    (shown : HashTree.decode evidence.witness = .error cause) : Rejected policy evidence now (.decode cause)
  | untimely {c : Certificate} {witness : HashTree} {e : VerificationError}
    (signed : Signed policy evidence c) (shown : HashTree.decode evidence.witness = .ok witness)
    (untimely : c.Untimely policy.maxOffset now e) : Rejected policy evidence now e
  | noData {c : Certificate} {witness : HashTree} (signed : Signed policy evidence c)
    (shown : HashTree.decode evidence.witness = .ok witness)
    (timely : ∃ nanos, c.time = .ok nanos ∧ Timely policy.maxOffset now nanos)
    (missing : ∀ value, c.tree.lookup (Certificate.dataPath evidence.canister) ≠ .found value) :
    Rejected policy evidence now .dataMissing
  | otherData {c : Certificate} {witness : HashTree} {value : Bytes} (signed : Signed policy evidence c)
    (shown : HashTree.decode evidence.witness = .ok witness)
    (timely : ∃ nanos, c.time = .ok nanos ∧ Timely policy.maxOffset now nanos)
    (certified : c.tree.lookup (Certificate.dataPath evidence.canister) = .found value)
    (differs : value ≠ witness.root.bytes) : Rejected policy evidence now .rootMismatch

namespace Certificate

variable {policy : Policy} {canister : Principal} {c : Certificate}

theorem signingKey_eq_ok_iff {key : Bytes} :
    c.signingKey policy canister = .ok key ↔ SigningKey policy canister c key := by
  constructor
  · intro h
    unfold signingKey at h
    split at h
    · rename_i d delegated
      obtain ⟨dc, authorized⟩ := Delegation.subnetKey_eq_ok_iff.mp (mapError_eq_ok_iff.mp h)
      exact .subnet delegated authorized
    · rename_i direct
      cases h
      exact .root direct
  · intro h
    cases h with
    | root direct => simp [signingKey, direct]
    | subnet delegated authorized =>
      simp only [signingKey, delegated, mapError_eq_ok_iff]
      exact Delegation.subnetKey_eq_ok_iff.mpr ⟨_, authorized⟩

theorem signingKey_eq_error_iff {e : VerificationError} :
    c.signingKey policy canister = .error e ↔ ∃ d cause, c.delegation = some d ∧
      d.Refused policy.check policy.rootKey canister cause ∧ .delegation cause = e := by
  unfold signingKey
  cases hd : c.delegation with
  | none => simp
  | some d => simp [mapError_eq_error_iff, Delegation.subnetKey_eq_error_iff]

theorem checkSignature_eq_ok_iff :
    c.checkSignature policy canister = .ok () ↔ ∃ key, SigningKey policy canister c key ∧
      policy.check (domainSeparator "ic-state-root" ++ c.tree.root.bytes) c.signature key = .ok () := by
  simp only [checkSignature, bind_eq_ok_iff, mapError_eq_ok_iff, signingKey_eq_ok_iff]
  rfl

theorem checkSignature_eq_error_iff {e : VerificationError} :
    c.checkSignature policy canister = .error e ↔
      (∃ d cause, c.delegation = some d ∧
        d.Refused policy.check policy.rootKey canister cause ∧ .delegation cause = e) ∨
      ∃ key cause, SigningKey policy canister c key ∧
        policy.check (domainSeparator "ic-state-root" ++ c.tree.root.bytes) c.signature key =
          .error cause ∧ .signature cause = e := by
  simp only [checkSignature, bind_eq_error_iff, mapError_eq_error_iff, signingKey_eq_ok_iff,
    signingKey_eq_error_iff, ← exists_and_left]
  rfl

theorem checkWitness_eq_ok_iff {witness : HashTree} :
    c.checkWitness canister witness = .ok () ↔
      c.tree.lookup (dataPath canister) = .found witness.root.bytes := by
  unfold checkWitness certifiedData
  cases c.tree.lookup (dataPath canister) with
  | found value => by_cases h : value = witness.root.bytes <;> simp [h]
  | absent => simp
  | unknown => simp
  | error => simp

theorem checkWitness_eq_error_iff {witness : HashTree} {e : VerificationError} :
    c.checkWitness canister witness = .error e ↔
      ((∀ value, c.tree.lookup (dataPath canister) ≠ .found value) ∧ .dataMissing = e) ∨
      ∃ value, c.tree.lookup (dataPath canister) = .found value ∧ value ≠ witness.root.bytes ∧
        .rootMismatch = e := by
  unfold checkWitness certifiedData
  cases c.tree.lookup (dataPath canister) with
  | found value => by_cases h : value = witness.root.bytes <;> simp [h]
  | absent => simp
  | unknown => simp
  | error => simp

end Certificate

variable {policy : Policy} {evidence : Evidence} {now : UInt64}

theorem verify_eq_ok_iff {witness : HashTree} :
    verify policy evidence now = .ok witness ↔ ∃ c, Accepted policy evidence now c witness := by
  simp only [verify, bind_eq_ok_iff, mapError_eq_ok_iff, exists_unit,
    Certificate.checkSignature_eq_ok_iff, Certificate.checkTime_eq_ok_iff,
    Certificate.checkWitness_eq_ok_iff, pure_eq_ok, Except.ok.injEq]
  refine exists_congr fun c => ?_
  constructor
  · rintro ⟨decoded, signed, _, shown, timely, certified, rfl⟩
    exact ⟨⟨decoded, signed⟩, shown, timely, certified⟩
  · rintro ⟨⟨decoded, signed⟩, shown, timely, certified⟩
    exact ⟨decoded, signed, witness, shown, timely, certified, rfl⟩

theorem verify_eq_error_iff {e : VerificationError} :
    verify policy evidence now = .error e ↔ Rejected policy evidence now e := by
  simp only [verify, bind_eq_error_iff, mapError_eq_ok_iff, mapError_eq_error_iff, exists_unit,
    Certificate.checkSignature_eq_ok_iff, Certificate.checkSignature_eq_error_iff,
    Certificate.checkTime_eq_ok_iff, Certificate.checkTime_eq_error_iff,
    Certificate.checkWitness_eq_error_iff, pure_eq_ok, reduceCtorEq, and_false, or_false]
  constructor
  · rintro (⟨cause, decoded, rfl⟩ | ⟨c, decoded, h⟩)
    · exact .undecodable decoded
    rcases h with (⟨d, cause, delegated, refused, rfl⟩ | ⟨key, cause, signer, signed, rfl⟩) | ⟨signed, h⟩
    · exact .unauthorized decoded delegated refused
    · exact .unsigned decoded signer signed
    rcases h with ⟨cause, shown, rfl⟩ | ⟨witness, shown, h⟩
    · exact .unreadable ⟨decoded, signed⟩ shown
    rcases h with untimely | ⟨timely, ⟨missing, rfl⟩ | ⟨value, certified, differs, rfl⟩⟩
    · exact .untimely ⟨decoded, signed⟩ shown untimely
    · exact .noData ⟨decoded, signed⟩ shown timely missing
    · exact .otherData ⟨decoded, signed⟩ shown timely certified differs
  · intro h
    cases h with
    | undecodable decoded => exact .inl ⟨_, decoded, rfl⟩
    | unauthorized decoded delegated refused =>
      exact .inr ⟨_, decoded, .inl (.inl ⟨_, _, delegated, refused, rfl⟩)⟩
    | unsigned decoded signer signed =>
      exact .inr ⟨_, decoded, .inl (.inr ⟨_, _, signer, signed, rfl⟩)⟩
    | unreadable signed shown =>
      exact .inr ⟨_, signed.decoded, .inr ⟨signed.signed, .inl ⟨_, shown, rfl⟩⟩⟩
    | untimely signed shown untimely =>
      exact .inr ⟨_, signed.decoded, .inr ⟨signed.signed, .inr ⟨_, shown, .inl untimely⟩⟩⟩
    | noData signed shown timely missing =>
      exact .inr ⟨_, signed.decoded, .inr ⟨signed.signed, .inr ⟨_, shown,
        .inr ⟨timely, .inl ⟨missing, rfl⟩⟩⟩⟩⟩
    | otherData signed shown timely certified differs =>
      exact .inr ⟨_, signed.decoded, .inr ⟨signed.signed, .inr ⟨_, shown,
        .inr ⟨timely, .inr ⟨_, certified, differs, rfl⟩⟩⟩⟩⟩

/-- A verification returns exactly the witnesses that the evidence makes acceptable, and otherwise the
error of the first check that fails. -/
theorem verify_exact (policy : Policy) (evidence : Evidence) (now : UInt64) :
    (∀ witness, verify policy evidence now = .ok witness ↔
      ∃ c, Accepted policy evidence now c witness) ∧
    ∀ e, verify policy evidence now = .error e ↔ Rejected policy evidence now e :=
  ⟨fun _ => verify_eq_ok_iff, fun _ => verify_eq_error_iff⟩

theorem HashTree.checkPayload_eq_ok_iff {witness : HashTree} {expected : ExpectedPayload} :
    witness.checkPayload expected = .ok () ↔
      witness.lookup [expected.key] = .found (Digest.sha256 expected.payload).bytes := by
  unfold checkPayload
  cases witness.lookup [expected.key] with
  | found value => by_cases h : value = (Digest.sha256 expected.payload).bytes <;> simp [h]
  | absent => simp
  | unknown => simp
  | error => simp

theorem verifyResponse_eq_ok_iff {expected : ExpectedPayload} {witness : HashTree} :
    verifyResponse policy evidence expected now = .ok witness ↔
      (∃ c, Accepted policy evidence now c witness) ∧
        witness.lookup [expected.key] = .found (Digest.sha256 expected.payload).bytes := by
  simp only [verifyResponse, bind_eq_ok_iff, mapError_eq_ok_iff, exists_unit, verify_eq_ok_iff,
    HashTree.checkPayload_eq_ok_iff, pure_eq_ok, Except.ok.injEq]
  constructor
  · rintro ⟨_, accepted, shown, rfl⟩
    exact ⟨accepted, shown⟩
  · rintro ⟨accepted, shown⟩
    exact ⟨witness, accepted, shown, rfl⟩

end Certified
