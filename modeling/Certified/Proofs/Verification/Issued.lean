import Mathlib
import Certified.Proofs.CertifiedMap.Witness
import Certified.Proofs.Encoding
import Certified.Proofs.Issuance
import Certified.Proofs.Leb128
import Certified.Proofs.Verification.Acceptance

/-!
Producer and verifier agree. A certificate that a network issues, directly or through a subnet, with a
witness of the map whose root it certifies, is accepted for its canister while it is recent and the subnet
answers for the canister; otherwise the error says which of these fails.
-/

namespace Certified

open HashTree

/-- The check accepts what the signer signs under its own key. -/
def SignatureCheck.Honors (check : SignatureCheck) (signer : Signer) : Prop :=
  ∀ message, check message (signer.sign message) signer.publicKey = .ok ()

theorem SignatureCheck.honors_none (signer : Signer) : SignatureCheck.none.Honors signer :=
  fun _ => rfl

namespace Signer

/-- The certificate for the data of a canister, signed by the subnet if there is one. -/
def issue (root : Signer) (subnet : Option Subnet) (canister : Principal) (data : Digest)
    (time : UInt64) : Certificate :=
  match subnet with
  | none => root.certificate (stateTree canister data time)
  | some s => { s.signer.certificate (stateTree canister data time) with
      delegation := some (root.delegate s time) }

/-- Its bytes. -/
def issueBytes (root : Signer) (subnet : Option Subnet) (canister : Principal) (data : Digest)
    (time : UInt64) : Bytes :=
  match subnet with
  | none => root.certify canister data time
  | some s => root.certifyDelegated s canister data time

end Signer

/-- There is no subnet, or none with ranges that leave the canister out. -/
def Serves (subnet : Option Subnet) (canister : Principal) : Prop :=
  ∀ s ∈ subnet, ∀ ranges ∈ s.ranges, CanisterRange.Admit ranges canister.bytes

section

variable {root : Signer} {subnet : Option Subnet} {canister other : Principal} {data : Digest}
  {time : UInt64} {check : SignatureCheck}

theorem encode_issue : (root.issue subnet canister data time).encode =
    root.issueBytes subnet canister data time := by
  cases subnet <;> rfl

theorem tree_issue : (root.issue subnet canister data time).tree = stateTree canister data time := by
  cases subnet <;> rfl

theorem decode_issueBytes (short : (root.issueBytes subnet canister data time).length < UInt64.size) :
    Certificate.decode (root.issueBytes subnet canister data time) =
      .ok (root.issue subnet canister data time) := by
  rw [← encode_issue] at short ⊢
  have shallow : (root.issue subnet canister data time).tree.height < Cbor.depthLimit := by
    rw [tree_issue, height_stateTree]
    decide
  exact Certificate.decode_encode shallow short

theorem time_issue : (root.issue subnet canister data time).time = .ok time := by
  rw [Certificate.time, tree_issue, lookup_stateTree_time]
  simp [Leb128.read_write]

/-- The certificate inside a delegation. -/
theorem decode_delegate {s : Subnet} (short : (root.delegate s time).certificate.length < UInt64.size) :
    Certificate.decode (root.delegate s time).certificate = .ok (root.certificate (s.tree time)) := by
  have shallow : (root.certificate (s.tree time)).tree.height < Cbor.depthLimit :=
    Nat.lt_of_le_of_lt (height_subnetTree_le time s) (by decide)
  exact Certificate.decode_encode shallow short

theorem genuine_delegate {s : Subnet} (honored : check.Honors root)
    (short : (root.delegate s time).certificate.length < UInt64.size) :
    Delegation.Genuine check root.publicKey (root.delegate s time) (root.certificate (s.tree time)) where
  decoded := decode_delegate short
  direct := rfl
  signed := honored (signedMessage (s.tree time).root)

/-- The ranges that a delegation shows are those of the subnet. -/
theorem decodeAll_ranges {s : Subnet} {ranges : List CanisterRange} (held : s.ranges = some ranges)
    (short : (root.delegate s time).certificate.length < UInt64.size) :
    (s.tree time).lookup (Delegation.rangesPath s.id) = .found (CanisterRange.encodeAll ranges) ∧
      CanisterRange.decodeAll (CanisterRange.encodeAll ranges) = .ok ranges := by
  have found : (s.tree time).lookup (Delegation.rangesPath s.id) =
      .found (CanisterRange.encodeAll ranges) := by
    rw [lookup_subnetTree_ranges, held]
    rfl
  have le : (CanisterRange.encodeAll ranges).length ≤ (root.certificate (s.tree time)).encode.length :=
    Certificate.length_le_of_lookup found
  exact ⟨found, CanisterRange.decodeAll_encodeAll (Nat.lt_of_le_of_lt le short)⟩

theorem rangesAdmit_delegate {s : Subnet} (serves : Serves (some s) other)
    (short : (root.delegate s time).certificate.length < UInt64.size) :
    Delegation.RangesAdmit (s.tree time) s.id other := by
  intro value found
  rw [lookup_subnetTree_ranges, Answer.ofOption_eq_found, Option.map_eq_some_iff] at found
  obtain ⟨ranges, held, rfl⟩ := found
  exact ⟨ranges, (decodeAll_ranges held short).2, serves s rfl ranges held⟩

/-- The delegation's certificate is shorter than the one that holds it. -/
theorem length_delegate_lt {s : Subnet}
    (short : (root.issueBytes (some s) canister data time).length < UInt64.size) :
    (root.delegate s time).certificate.length < UInt64.size := by
  rw [← encode_issue] at short
  have le : (root.delegate s time).certificate.length <
      (root.issue (some s) canister data time).encode.length := Certificate.length_delegation_lt rfl
  exact Nat.lt_trans le short

end

/-- The evidence holds a certificate that the network issued under the policy's root key. -/
structure Issued (policy : Policy) (root : Signer) (subnet : Option Subnet) (canister : Principal)
    (data : Digest) (time : UInt64) (evidence : Evidence) : Prop where
  rootKey : policy.rootKey = root.publicKey
  honored : policy.check.Honors root
  honoredSubnet : ∀ s ∈ subnet, policy.check.Honors s.signer
  certificate : evidence.certificate = root.issueBytes subnet canister data time
  short : (root.issueBytes subnet canister data time).length < UInt64.size

namespace Issued

variable {policy : Policy} {root : Signer} {subnet : Option Subnet} {canister : Principal} {data : Digest}
  {time now : UInt64} {evidence : Evidence} {witness : HashTree}

theorem decoded (h : Issued policy root subnet canister data time evidence) :
    Certificate.decode evidence.certificate = .ok (root.issue subnet canister data time) :=
  h.certificate ▸ decode_issueBytes h.short

/-- If the subnet serves the canister, a key that may have signed the certificate did. -/
theorem signed (h : Issued policy root subnet canister data time evidence)
    (serves : Serves subnet evidence.canister) :
    Signed policy evidence (root.issue subnet canister data time) := by
  refine ⟨h.decoded, ?_⟩
  cases subnet with
  | none =>
    refine ⟨policy.rootKey, .root rfl, ?_⟩
    rw [h.rootKey]
    exact h.honored (signedMessage (stateTree canister data time).root)
  | some s =>
    have short := length_delegate_lt h.short
    have authorized : (root.delegate s time).Authorizes policy.check policy.rootKey evidence.canister
        (root.certificate (s.tree time)) s.signer.publicKey :=
      ⟨h.rootKey ▸ genuine_delegate h.honored short, rangesAdmit_delegate serves short,
        lookup_subnetTree_key time s⟩
    exact ⟨s.signer.publicKey, .subnet rfl authorized,
      h.honoredSubnet s rfl (signedMessage (stateTree canister data time).root)⟩

/-- A subnet whose ranges leave the canister out is refused for them. -/
theorem outOfRange (h : Issued policy root subnet canister data time evidence)
    (outside : ¬ Serves subnet evidence.canister) :
    Rejected policy evidence now (.delegation (.outOfRange evidence.canister)) := by
  obtain ⟨s, rfl, ranges, held, outside⟩ : ∃ s, subnet = some s ∧ ∃ ranges, s.ranges = some ranges ∧
      ¬ CanisterRange.Admit ranges evidence.canister.bytes := by
    simpa [Serves] using outside
  have short := length_delegate_lt h.short
  obtain ⟨found, readable⟩ := decodeAll_ranges held short
  have refused : (root.delegate s time).Refused policy.check policy.rootKey evidence.canister
      (.outOfRange evidence.canister) :=
    .outside (h.rootKey ▸ genuine_delegate h.honored short) found readable outside
  exact .unauthorized h.decoded rfl refused

theorem untimely (h : Issued policy root subnet canister data time evidence)
    (serves : Serves subnet evidence.canister)
    (shown : HashTree.decode evidence.witness = .ok witness)
    (far : ¬ Timely policy.maxOffset now time) :
    Rejected policy evidence now (.time (if now.toNat < time.toNat / 1000000 then
      .tooFarInFuture (time / 1000000) now else .tooFarInPast (time / 1000000) now)) := by
  refine .untimely (h.signed serves) shown ?_
  rw [timely_iff, toNat_millis] at far
  split
  · exact .future time_issue (by omega)
  · exact .past time_issue (by omega)

theorem dataMissing (h : Issued policy root subnet canister data time evidence)
    (serves : Serves subnet evidence.canister) (shown : HashTree.decode evidence.witness = .ok witness)
    (timely : Timely policy.maxOffset now time) (elsewhere : evidence.canister ≠ canister) :
    Rejected policy evidence now .dataMissing := by
  refine .noData (h.signed serves) shown ⟨time, time_issue, timely⟩ fun value => ?_
  rw [tree_issue, lookup_stateTree_data, if_neg elsewhere.symm]
  exact fun found => nomatch found

theorem accepted (h : Issued policy root subnet canister data time evidence)
    (serves : Serves subnet evidence.canister) (shown : HashTree.decode evidence.witness = .ok witness)
    (timely : Timely policy.maxOffset now time) (same : evidence.canister = canister)
    (certified : witness.root = data) :
    Accepted policy evidence now (root.issue subnet canister data time) witness := by
  refine ⟨h.signed serves, shown, ⟨time, time_issue, timely⟩, ?_⟩
  rw [tree_issue, lookup_stateTree_data, if_pos same.symm, certified]

end Issued

/-- The witness that a map gives for a key it holds can be read again. -/
theorem CertifiedMap.exists_witnessBytes {m : CertifiedMap} {key : Label} (held : (m.get? key).isSome)
    (size : m.size ≤ 2 ^ 64)
    (short : ∀ bytes ∈ m.witnessBytes? key, bytes.length < UInt64.size) :
    ∃ witness bytes, m.witness? key = some witness ∧ m.witnessBytes? key = some bytes ∧
      HashTree.decode bytes = .ok witness := by
  obtain ⟨witness, shown⟩ := exists_witness held
  have written : m.witnessBytes? key = some witness.encode := by
    rw [witnessBytes?, shown]
    rfl
  have shallow : witness.height ≤ Cbor.depthLimit :=
    Nat.le_trans (height_witness_le shown size) (by decide)
  exact ⟨witness, witness.encode, shown, written,
    HashTree.decode_encode shallow (short _ (Option.mem_def.mpr written))⟩

/-- Issued evidence is accepted exactly for the canister it is about, while it is recent and the subnet
serves the canister. Where it is not, the ranges come first, then the time, then the canister. Both byte
strings are shorter than what an address space holds. -/
theorem verify_issued {policy : Policy} {root : Signer} {subnet : Option Subnet} {m : CertifiedMap}
    {key : Label} (rootKey : policy.rootKey = root.publicKey) (honored : policy.check.Honors root)
    (honoredSubnet : ∀ s ∈ subnet, policy.check.Honors s.signer) (held : (m.get? key).isSome)
    (size : m.size ≤ 2 ^ 64) (canister other : Principal) (time now : UInt64)
    (short : (root.issueBytes subnet canister m.root time).length < UInt64.size)
    (shortWitness : ∀ bytes ∈ m.witnessBytes? key, bytes.length < UInt64.size) :
    ∃ witness bytes, m.witness? key = some witness ∧ m.witnessBytes? key = some bytes ∧
      let outcome := verify policy ⟨other, root.issueBytes subnet canister m.root time, bytes⟩ now
      (∀ tree, outcome = .ok tree ↔ tree = witness ∧ other = canister ∧
        Timely policy.maxOffset now time ∧ Serves subnet other) ∧
      (¬ Serves subnet other → outcome = .error (.delegation (.outOfRange other))) ∧
      (Serves subnet other → ¬ Timely policy.maxOffset now time →
        outcome = .error (.time (if now.toNat < time.toNat / 1000000 then
          .tooFarInFuture (time / 1000000) now else .tooFarInPast (time / 1000000) now))) ∧
      (Serves subnet other → Timely policy.maxOffset now time → other ≠ canister →
        outcome = .error .dataMissing) := by
  obtain ⟨witness, bytes, shown, written, readable⟩ :=
    CertifiedMap.exists_witnessBytes held size shortWitness
  refine ⟨witness, bytes, shown, written, ?_⟩
  intro outcome
  have issued : Issued policy root subnet canister m.root time
      ⟨other, root.issueBytes subnet canister m.root time, bytes⟩ :=
    ⟨rootKey, honored, honoredSubnet, rfl, short⟩
  have outside (h : ¬ Serves subnet other) : outcome = .error (.delegation (.outOfRange other)) :=
    verify_eq_error_iff.mpr (issued.outOfRange h)
  have untimely (serves : Serves subnet other) (h : ¬ Timely policy.maxOffset now time) :=
    verify_eq_error_iff.mpr (issued.untimely serves readable h)
  have elsewhere (serves : Serves subnet other) (timely : Timely policy.maxOffset now time)
      (h : other ≠ canister) : outcome = .error .dataMissing :=
    verify_eq_error_iff.mpr (issued.dataMissing serves readable timely h)
  refine ⟨fun tree => ⟨fun accepted => ?_, ?_⟩, outside, untimely, elsewhere⟩
  -- Each of the three failures has its own error, so where the run accepts none of them is there.
  · have failed {e : VerificationError} (h : outcome = .error e) : False :=
      nomatch accepted.symm.trans h
    have serves : Serves subnet other := Classical.byContradiction fun h => failed (outside h)
    have timely : Timely policy.maxOffset now time :=
      Classical.byContradiction fun h => failed (untimely serves h)
    have same : other = canister := Classical.byContradiction fun h => failed (elsewhere serves timely h)
    obtain ⟨c, accepted⟩ := verify_eq_ok_iff.mp accepted
    exact ⟨Except.ok.inj (accepted.shown.symm.trans readable), same, timely, serves⟩
  · rintro ⟨rfl, same, timely, serves⟩
    exact verify_eq_ok_iff.mpr
      ⟨_, issued.accepted serves readable timely same (CertifiedMap.root_witness shown)⟩

namespace Issued.Sample

/-- A signature is the key and the message. -/
def scheme : SignatureCheck := fun message signature key =>
  if signature = key ++ message then .ok () else .error .invalidSignature

def signer (key : Bytes) : Signer where
  publicKey := key
  sign message := key ++ message

theorem honored (key : Bytes) : scheme.Honors (signer key) := by
  intro message
  simp [scheme, signer]

/-- A subnet that serves the canisters from `[1]` to `[5]`. -/
def subnet : Subnet where
  id := [2]
  signer := signer [3]
  ranges := some [⟨[1], [5]⟩]

def canister : Principal :=
  ⟨[4], by decide⟩

def map : CertifiedMap :=
  (CertifiedMap.empty.insert [1] [2]).insert [3] [4]

def policy : Policy where
  check := scheme
  rootKey := [6]
  maxOffset := 0

def certificate : Bytes :=
  (signer [6]).issueBytes (some subnet) canister map.root 1000000

theorem short : certificate.length < UInt64.size := by
  decide +kernel

theorem shortWitness : ∀ bytes ∈ map.witnessBytes? [1], bytes.length < UInt64.size := by
  decide +kernel

theorem serves : Serves (some subnet) canister := by
  intro s hs ranges hranges
  cases hs
  cases hranges
  decide

end Issued.Sample

theorem verify_issued_sample :
    Issued.Sample.policy.check.Honors (Issued.Sample.signer [6]) ∧
    (∀ s ∈ some Issued.Sample.subnet, Issued.Sample.policy.check.Honors s.signer) ∧
    (Issued.Sample.map.get? [1]).isSome ∧ Issued.Sample.map.size ≤ 2 ^ 64 ∧
    ∃ witness bytes, Issued.Sample.map.witness? [1] = some witness ∧
      Issued.Sample.map.witnessBytes? [1] = some bytes ∧
      verify Issued.Sample.policy ⟨Issued.Sample.canister, Issued.Sample.certificate, bytes⟩ 1 =
        .ok witness := by
  have rootKey : Issued.Sample.policy.rootKey = (Issued.Sample.signer [6]).publicKey := rfl
  have honored : Issued.Sample.policy.check.Honors (Issued.Sample.signer [6]) :=
    Issued.Sample.honored [6]
  have honoredSubnet : ∀ s ∈ some Issued.Sample.subnet,
      Issued.Sample.policy.check.Honors s.signer := by
    rintro s ⟨⟩
    exact Issued.Sample.honored [3]
  have held : (Issued.Sample.map.get? [1]).isSome := by decide
  have size : Issued.Sample.map.size ≤ 2 ^ 64 := by decide
  obtain ⟨witness, bytes, shown, written, outcome, _⟩ :=
    verify_issued rootKey honored honoredSubnet held size Issued.Sample.canister
      Issued.Sample.canister 1000000 1 Issued.Sample.short Issued.Sample.shortWitness
  refine ⟨honored, honoredSubnet, held, size, witness, bytes, shown, written, ?_⟩
  exact (outcome witness).mpr ⟨rfl, rfl, by decide, Issued.Sample.serves⟩

end Certified
