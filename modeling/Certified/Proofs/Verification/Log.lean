import Certified.Verification.Log
import Certified.Proofs.Verification.Acceptance

/-!
Verification with a log decides as verification without one, and what it logs is what it has found out. What is
accepted is logged step by step; whatever else happens, nothing is logged at the level of an answer.
-/

namespace Certified

variable {policy : Policy} {notices : List LogEvent} {canister : Principal} {c : Certificate}
  {evidence : Evidence} {now : UInt64}

/-! ### Logging changes no result -/

theorem Delegation.result_subnetKeyLogged (check : SignatureCheck) (notices : List LogEvent)
    (rootKey : Bytes) (canister : Principal) (d : Delegation) :
    (d.subnetKeyLogged check notices rootKey canister).result = d.subnetKey check rootKey canister := by
  simp only [subnetKeyLogged, subnetKey, Logged.result_bind, Logged.result_silent]
  congr 1
  funext c
  by_cases delegated : c.delegation.isSome
  · simp [delegated]
  · cases found : c.tree.lookup (keyPath d.subnetId) <;> simp [delegated, SignatureCheck.logged]

namespace Certificate

theorem result_signingKeyLogged :
    (c.signingKeyLogged policy notices canister).result = c.signingKey policy canister := by
  unfold signingKeyLogged signingKey
  cases c.delegation with
  | none => rfl
  | some d => rw [Logged.result_mapError, d.result_subnetKeyLogged]

theorem result_checkSignatureLogged :
    (c.checkSignatureLogged policy notices canister).result = c.checkSignature policy canister := by
  rw [checkSignatureLogged, Logged.result_bind, result_signingKeyLogged]
  rfl

/-- Where the time is checked it can be read once more. -/
theorem result_checkTimeLogged {maxOffset : UInt64} :
    (c.checkTimeLogged maxOffset now).result = c.checkTime maxOffset now := by
  simp only [checkTimeLogged, checkTime, Logged.result_bind, Logged.result_silent, Logged.result_note]
  cases c.time with
  | error cause => rfl
  | ok nanos =>
    simp only [mapError_ok, ok_bind]
    split
    · rfl
    · split <;> rfl

end Certificate

theorem result_verifyLogged :
    (verifyLogged policy notices evidence now).result = verify policy evidence now := by
  simp only [verifyLogged, verify, Logged.result_bind, Logged.result_silent,
    Certificate.result_checkSignatureLogged, Certificate.result_checkTimeLogged, Logged.result_note,
    Logged.result_pure, ok_bind]
  rfl

/-! ### What is logged of what is accepted -/

theorem SignatureCheck.result_logged {ε : Type} {check : SignatureCheck} {message signature key : Bytes}
    (signed : check message signature key = .ok ()) (f : SignatureError → ε) :
    ((check.logged notices message signature key).mapError f).result = .ok () := by
  rw [Logged.result_mapError, logged, signed, mapError_ok]

/-- The root key has been checked, and then the key that the delegation shows is used. -/
theorem Delegation.Authorizes.log_subnetKeyLogged {check : SignatureCheck} {rootKey key : Bytes}
    {d : Delegation} {dc : Certificate} (authorized : d.Authorizes check rootKey canister dc key) :
    (d.subnetKeyLogged check notices rootKey canister).log = notices ++ [.subnetKey key] := by
  have signed : check (signedMessage dc.tree.root) dc.signature rootKey = .ok () := authorized.signed
  have admitted : checkRanges dc d.subnetId canister = .ok () :=
    checkRanges_eq_ok_iff.mpr authorized.admitted
  simp only [subnetKeyLogged, authorized.decoded, mapError_ok, Logged.silent_ok_bind, authorized.direct,
    Option.isSome_none, Bool.false_eq_true, if_false, admitted, authorized.shown]
  rw [Logged.log_bind_of_ok (SignatureCheck.result_logged signed _)]
  rfl

namespace Certificate

/-- What is logged about the signature of an accepted certificate. -/
def signatureLog (notices : List LogEvent) (key : Bytes) (c : Certificate) : List LogEvent :=
  if c.delegation.isSome then notices ++ [.subnetKey key] ++ notices else notices

theorem log_signingKeyLogged {key : Bytes} (signing : SigningKey policy canister c key) :
    (c.signingKeyLogged policy notices canister).log =
      if c.delegation.isSome then notices ++ [.subnetKey key] else [] := by
  cases signing with
  | root direct => simp [signingKeyLogged, direct]
  | subnet delegated authorized => simp [signingKeyLogged, delegated, authorized.log_subnetKeyLogged]

theorem log_checkSignatureLogged {key : Bytes} (signing : SigningKey policy canister c key) :
    (c.checkSignatureLogged policy notices canister).log = c.signatureLog notices key := by
  have found : (c.signingKeyLogged policy notices canister).result = .ok key := by
    rw [result_signingKeyLogged, signingKey_eq_ok_iff.mpr signing]
  rw [checkSignatureLogged, Logged.log_bind_of_ok found, log_signingKeyLogged signing, signatureLog]
  split <;> simp [SignatureCheck.logged]

theorem log_checkTimeLogged {maxOffset nanos : UInt64} (read : c.time = .ok nanos)
    (timely : Timely maxOffset now nanos) :
    (c.checkTimeLogged maxOffset now).log = [.timely (nanos / 1000000) maxOffset now] := by
  have checked : c.checkTime maxOffset now = .ok () := checkTime_eq_ok_iff.mpr ⟨nanos, read, timely⟩
  simp [checkTimeLogged, checked, read]

end Certificate

/-- What is accepted is logged step by step: the signature, the time, the witness. -/
theorem Accepted.log_verifyLogged (notices : List LogEvent) {witness : HashTree}
    (accepted : Accepted policy evidence now c witness) :
    ∃ key nanos, SigningKey policy evidence.canister c key ∧ c.time = .ok nanos ∧
      (verifyLogged policy notices evidence now).log = c.signatureLog notices key ++
        [.timely (nanos / 1000000) policy.maxOffset now, .witness evidence.canister] := by
  obtain ⟨key, signing, signed⟩ := accepted.signed
  obtain ⟨nanos, read, timely⟩ := accepted.timely
  refine ⟨key, nanos, signing, read, ?_⟩
  have checked : (c.checkSignatureLogged policy notices evidence.canister).result = .ok () := by
    rw [Certificate.result_checkSignatureLogged]
    exact Certificate.checkSignature_eq_ok_iff.mpr ⟨key, signing, signed⟩
  have inTime : (c.checkTimeLogged policy.maxOffset now).result = .ok () := by
    rw [Certificate.result_checkTimeLogged]
    exact Certificate.checkTime_eq_ok_iff.mpr ⟨nanos, read, timely⟩
  have certified : c.checkWitness evidence.canister witness = .ok () :=
    Certificate.checkWitness_eq_ok_iff.mpr accepted.certified
  simp only [verifyLogged, accepted.decoded, accepted.shown, mapError_ok, Logged.silent_ok_bind,
    Logged.log_bind_of_ok checked, Logged.log_bind_of_ok inTime, certified,
    Certificate.log_checkSignatureLogged signing, Certificate.log_checkTimeLogged read timely]
  rfl

/-! ### What is not logged -/

/-- No event is at the level of an answer. -/
def Logged.Quiet {ε α : Type} (x : Logged ε α) : Prop :=
  ∀ event ∈ x.log, event.level ≠ .info

namespace Logged

variable {ε δ α β : Type} {x : Logged ε α}

theorem quiet_silent (result : Except ε α) : (silent result).Quiet :=
  fun _ => nofun

theorem quiet_note {event : LogEvent} (other : event.level ≠ .info) : (note [event] : Logged ε Unit).Quiet :=
  List.forall_mem_singleton.mpr other

theorem Quiet.mapError (quiet : x.Quiet) (f : ε → δ) : (x.mapError f).Quiet :=
  quiet

/-- What is logged at the level of an answer comes after a step without such events. -/
theorem Quiet.exists_of_mem_bind (quiet : x.Quiet) {next : α → Logged ε β} {event : LogEvent}
    (answer : event.level = .info) (mem : event ∈ (x >>= next).log) :
    ∃ a, x.result = .ok a ∧ event ∈ (next a).log := by
  rcases mem_log_bind.mp mem with first | second
  · exact absurd answer (quiet event first)
  · exact second

theorem Quiet.bind (quiet : x.Quiet) {next : α → Logged ε β} (after : ∀ a, (next a).Quiet) :
    (x >>= next).Quiet := by
  intro event mem
  rcases mem_log_bind.mp mem with first | ⟨a, _, second⟩
  · exact quiet event first
  · exact after a event second

end Logged

section

variable (quiet : ∀ event ∈ notices, event.level ≠ .info)
include quiet

theorem Delegation.quiet_subnetKeyLogged (check : SignatureCheck) (rootKey : Bytes) (canister : Principal)
    (d : Delegation) : (d.subnetKeyLogged check notices rootKey canister).Quiet := by
  refine (Logged.quiet_silent _).bind fun c => ?_
  refine (Logged.quiet_silent _).bind fun _ => ?_
  have notified : (check.logged notices (signedMessage c.tree.root) c.signature rootKey).Quiet := quiet
  refine (notified.mapError _).bind fun _ => ?_
  refine (Logged.quiet_silent _).bind fun _ => ?_
  refine (Logged.quiet_silent _).bind fun key => ?_
  exact (Logged.quiet_note (by nofun)).bind fun _ => Logged.quiet_silent _

theorem Certificate.quiet_checkSignatureLogged (policy : Policy) (canister : Principal) (c : Certificate) :
    (c.checkSignatureLogged policy notices canister).Quiet := by
  have key : (c.signingKeyLogged policy notices canister).Quiet := by
    unfold signingKeyLogged
    split
    · exact (Delegation.quiet_subnetKeyLogged quiet _ _ _ _).mapError _
    · exact Logged.quiet_silent _
  exact key.bind fun _ => quiet

theorem quiet_verifyLogged (policy : Policy) (evidence : Evidence) (now : UInt64) :
    (verifyLogged policy notices evidence now).Quiet := by
  refine (Logged.quiet_silent _).bind fun c => ?_
  refine (c.quiet_checkSignatureLogged quiet policy _).bind fun _ => ?_
  refine (Logged.quiet_silent _).bind fun witness => ?_
  refine Logged.Quiet.bind ?_ fun _ => ?_
  · exact (Logged.quiet_silent _).bind fun _ => (Logged.quiet_silent _).bind fun _ => Logged.quiet_note (by nofun)
  · exact (Logged.quiet_silent _).bind fun _ => (Logged.quiet_note (by nofun)).bind fun _ => Logged.quiet_silent _

end

theorem HashTree.quiet_checkPayloadLogged (witness : HashTree) (expected : ExpectedPayload) :
    (witness.checkPayloadLogged expected).Quiet := by
  unfold Logged.Quiet checkPayloadLogged
  cases witness.lookup [expected.key] <;> simp [LogEvent.keyLookup]

end Certified
