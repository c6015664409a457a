import Certified.Proofs.CertifiedMap.Layout
import Certified.Proofs.Issuance
import Certified.Proofs.Leb128
import Certified.Proofs.Verification.Acceptance

/-!
Verification against an adversary. Where the root key only ever signed the state trees of canisters that
published their maps, no certificate and no witness, however they were pruned, forked or delegated, makes
a verifier accept what is not in a published map, unless two byte strings with one digest were hashed.
-/

namespace Certified

open HashTree

/-- A map that a canister published at a time in nanoseconds. -/
structure Publication where
  canister : Principal
  map : CertifiedMap
  time : UInt64

/-- The state tree that certifies the publication. -/
def Publication.stateTree (p : Publication) : HashTree :=
  Certified.stateTree p.canister p.map.root p.time

/-- What is hashed to find the roots of the state tree and of the map's tree. -/
def Publication.messages (p : Publication) : List Bytes :=
  p.stateTree.messages ++ p.map.tree.messages

/-- The key accepts no other message than the signed root of a publication. -/
def SignatureCheck.OnlyPublished (check : SignatureCheck) (key : Bytes) (published : Set Publication) :
    Prop :=
  ∀ message signature, check message signature key = .ok () →
    ∃ p ∈ published, message = signedMessage p.stateTree.root

/-- What is hashed to find the root of a tree, if the bytes spell one. -/
def messagesOf (tree : Except DecodeError HashTree) : List Bytes :=
  match tree with
  | .ok t => t.messages
  | .error _ => []

/-- What is hashed for the tree of a certificate and for that of its delegation. -/
def Certificate.messages (c : Certificate) : List Bytes :=
  c.tree.messages ++
    match c.delegation with
    | some d => messagesOf ((Certificate.decode d.certificate).map (·.tree))
    | none => []

/-- What is hashed to verify the evidence. -/
def Evidence.messages (e : Evidence) : List Bytes :=
  (match Certificate.decode e.certificate with
    | .ok c => c.messages
    | .error _ => []) ++
  messagesOf (HashTree.decode e.witness)

/-- What the tree says about single keys is true of the map. -/
structure TrueOf (m : CertifiedMap) (t : HashTree) : Prop where
  found : ∀ key value, t.lookup [key] = .found value → m.get? key = some value
  absent : ∀ key, t.lookup [key] = .absent → m.get? key = none
  noError : ∀ key, t.lookup [key] ≠ .error

/-- A publication of the canister, at a time near the clock, holds the payload's digest under the key, and
the witness says nothing false about it. -/
structure Publication.Backs (p : Publication) (policy : Policy) (evidence : Evidence)
    (expected : ExpectedPayload) (now : UInt64) (witness : HashTree) : Prop where
  canister : p.canister = evidence.canister
  timely : Timely policy.maxOffset now p.time
  payload : p.map.get? expected.key = some (Digest.sha256 expected.payload).bytes
  truthful : TrueOf p.map witness

theorem signedMessage_inj {a b : Digest} (h : signedMessage a = signedMessage b) : a = b :=
  Digest.ext (List.append_cancel_left h)

theorem trueOf_of_root_eq {m : CertifiedMap} {t : HashTree} (safe : CollisionFree t m.tree)
    (h : t.root = m.root) : TrueOf m t := by
  have answer (key : Label) : t.lookup [key] = .unknown ∨ t.lookup [key] = .ofOption (m.get? key) := by
    rw [← m.lookup_tree key]
    exact safe.lookup_eq h m.complete_tree m.distinctLabels_tree [key]
  refine ⟨?_, ?_, ?_⟩
  · intro key value found
    have shown := (answer key).resolve_left (by simp [found])
    exact Answer.ofOption_eq_found.mp (shown.symm.trans found)
  · intro key absent
    have shown := (answer key).resolve_left (by simp [absent])
    exact Answer.ofOption_eq_absent.mp (shown.symm.trans absent)
  · intro key error
    have shown := (answer key).resolve_left (by simp [error])
    exact Answer.ofOption_ne_error _ (shown.symm.trans error)

namespace Publication

variable {p : Publication} {c : Certificate}

/-- A tree with the root of a state tree hides an answer or gives that of the state tree. -/
theorem lookup_eq (safe : CollisionFree c.tree p.stateTree) (h : c.tree.root = p.stateTree.root)
    (path : List Label) :
    c.tree.lookup path = .unknown ∨ c.tree.lookup path = p.stateTree.lookup path :=
  safe.lookup_eq h (complete_stateTree _ _ _) (distinctLabels_stateTree _ _ _) path

theorem time_eq (safe : CollisionFree c.tree p.stateTree) (h : c.tree.root = p.stateTree.root)
    {nanos : UInt64} (time : c.time = .ok nanos) : nanos = p.time := by
  unfold Certificate.time at time
  rcases lookup_eq safe h Certificate.timePath with hidden | shown
  · simp [hidden] at time
  · rw [stateTree, lookup_stateTree_time] at shown
    simpa [shown, Leb128.read_write] using time.symm

theorem data_eq (safe : CollisionFree c.tree p.stateTree) (h : c.tree.root = p.stateTree.root)
    {canister : Principal} {data : Digest}
    (certified : c.tree.lookup (Certificate.dataPath canister) = .found data.bytes) :
    p.canister = canister ∧ data = p.map.root := by
  rcases lookup_eq safe h (Certificate.dataPath canister) with hidden | shown
  · rw [certified] at hidden
    cases hidden
  · rw [certified, stateTree, lookup_stateTree_data] at shown
    split at shown
    · rename_i same
      exact ⟨same, Digest.ext (Answer.found.inj shown)⟩
    · cases shown

/-- The state tree of a canister vouches for no subnet. -/
theorem subnet_hidden (safe : CollisionFree c.tree p.stateTree) (h : c.tree.root = p.stateTree.root)
    (path : List Label) (value : Bytes) :
    c.tree.lookup (Bytes.ofText "subnet" :: path) ≠ .found value := by
  intro found
  rcases lookup_eq safe h (Bytes.ofText "subnet" :: path) with hidden | shown
  · rw [found] at hidden
    cases hidden
  · rw [found, stateTree, lookup_stateTree_subnet] at shown
    cases shown

end Publication

theorem Certificate.messages_delegation {c dc : Certificate} {d : Delegation}
    (delegated : c.delegation = some d) (decoded : Certificate.decode d.certificate = .ok dc) :
    dc.tree.messages ⊆ c.messages := by
  simp [messages, delegated, decoded, messagesOf, Except.map]

theorem Accepted.certificate_messages {policy : Policy} {evidence : Evidence} {now : UInt64}
    {c : Certificate} {witness : HashTree} (h : Accepted policy evidence now c witness) :
    c.messages ⊆ evidence.messages := by
  simp [Evidence.messages, h.decoded]

theorem Accepted.witness_messages {policy : Policy} {evidence : Evidence} {now : UInt64}
    {c : Certificate} {witness : HashTree} (h : Accepted policy evidence now c witness) :
    witness.messages ⊆ evidence.messages := by
  simp [Evidence.messages, h.shown, messagesOf]

/-- Trees of the evidence and of the publication do not collide if their messages do not. -/
theorem collisionFree_of_messages {evidence : Evidence} {p : Publication} {s t : HashTree}
    (safe : ¬ Collision (evidence.messages ++ p.messages)) (hs : s.messages ⊆ evidence.messages)
    (ht : t.messages ⊆ p.messages) : CollisionFree s t :=
  .of_subset safe (List.subset_append_of_subset_left _ hs) (List.subset_append_of_subset_right _ ht)

section

variable {policy : Policy} {evidence : Evidence} {expected : ExpectedPayload} {now : UInt64}
  {c : Certificate} {witness : HashTree} {published : Set Publication} {p : Publication}

/-- What the key signed is the root of a published state tree. -/
theorem SignatureCheck.OnlyPublished.root_eq {check : SignatureCheck} {key signature : Bytes}
    {t : HashTree} (honest : check.OnlyPublished key published)
    (signed : check (domainSeparator "ic-state-root" ++ t.root.bytes) signature key = .ok ()) :
    ∃ p ∈ published, t.root = p.stateTree.root := by
  obtain ⟨p, mem, same⟩ := honest _ _ signed
  exact ⟨p, mem, signedMessage_inj same⟩

/-- A publication backs what is accepted with its state tree's root. -/
theorem Publication.backs (accepted : Accepted policy evidence now c witness)
    (payload : witness.lookup [expected.key] = .found (Digest.sha256 expected.payload).bytes)
    (root : c.tree.root = p.stateTree.root)
    (safe : ¬ Collision (evidence.messages ++ p.messages)) :
    p.Backs policy evidence expected now witness := by
  have safeState : CollisionFree c.tree p.stateTree :=
    collisionFree_of_messages safe
      (List.Subset.trans (List.subset_append_left _ _) accepted.certificate_messages)
      (List.subset_append_left _ _)
  have safeMap : CollisionFree witness p.map.tree :=
    collisionFree_of_messages safe accepted.witness_messages (List.subset_append_right _ _)
  obtain ⟨canister, data⟩ := data_eq safeState root accepted.certified
  obtain ⟨nanos, time, timely⟩ := accepted.timely
  have truthful : TrueOf p.map witness := trueOf_of_root_eq safeMap data
  have sameTime : nanos = p.time := time_eq safeState root time
  exact ⟨canister, sameTime ▸ timely, truthful.found _ _ payload, truthful⟩

/-- A certificate with the root of a published state tree authorizes no subnet. -/
theorem Publication.not_authorizes (accepted : Accepted policy evidence now c witness) {d : Delegation}
    {dc : Certificate} {key : Bytes} (delegated : c.delegation = some d)
    (root : dc.tree.root = p.stateTree.root)
    (safe : ¬ Collision (evidence.messages ++ p.messages)) :
    ¬ d.Authorizes policy.check policy.rootKey evidence.canister dc key := by
  intro authorized
  have inside : dc.tree.messages ⊆ evidence.messages :=
    List.Subset.trans (Certificate.messages_delegation delegated authorized.decoded)
      accepted.certificate_messages
  have safeState : CollisionFree dc.tree p.stateTree :=
    collisionFree_of_messages safe inside (List.subset_append_left _ _)
  exact subnet_hidden safeState root _ _ authorized.shown

/-- What is accepted under a key that signed nothing but publications is backed by one of them, unless two
of the byte strings that were hashed collide. -/
theorem accepted_response_backed
    (honest : policy.check.OnlyPublished policy.rootKey published)
    (accepted : verifyResponse policy evidence expected now = .ok witness) :
    ∃ p ∈ published, p.Backs policy evidence expected now witness ∨
      Collision (evidence.messages ++ p.messages) := by
  obtain ⟨⟨c, accepted⟩, payload⟩ := verifyResponse_eq_ok_iff.mp accepted
  obtain ⟨key, signer, signed⟩ := accepted.signed
  cases signer with
  | root direct =>
    obtain ⟨p, mem, root⟩ := honest.root_eq signed
    refine ⟨p, mem, ?_⟩
    by_cases safe : Collision (evidence.messages ++ p.messages)
    · exact .inr safe
    · exact .inl (Publication.backs accepted payload root safe)
  | subnet delegated authorized =>
    -- the root key signed the delegation too, but no publication vouches for a subnet
    obtain ⟨p, mem, root⟩ := honest.root_eq authorized.signed
    refine ⟨p, mem, ?_⟩
    by_cases safe : Collision (evidence.messages ++ p.messages)
    · exact .inr safe
    · exact absurd authorized (Publication.not_authorizes accepted delegated root safe)

end

namespace Sample

/-- The management canister published the payload `[2]` under the key `[1]` beside another entry. -/
def publication : Publication where
  canister := Principal.management
  map := (CertifiedMap.empty.insertPayload [1] [2]).insert [3] []
  time := 1000000

def certificate : Certificate where
  tree := publication.stateTree
  signature := []
  delegation := none

/-- The other entry is pruned. -/
def witness : HashTree :=
  .fork (.labeled [1] (.leaf (Digest.sha256 [2]).bytes)) (HashTree.labeled [3] (.leaf [])).prune

def evidence : Evidence where
  canister := Principal.management
  certificate := certificate.encode
  witness := witness.encode

/-- Accepts the signed root of the publication and nothing else. -/
def policy : Policy where
  check message _ _ :=
    if message = signedMessage publication.stateTree.root then .ok () else .error .invalidSignature
  rootKey := []
  maxOffset := 0

theorem onlyPublished : policy.check.OnlyPublished policy.rootKey {publication} := by
  intro message signature accepted
  refine ⟨publication, rfl, ?_⟩
  by_cases same : message = signedMessage publication.stateTree.root
  · exact same
  · simp [policy, same] at accepted

theorem decode_certificate : Certificate.decode certificate.encode = .ok certificate := by
  decide +kernel

theorem decode_witness : HashTree.decode witness.encode = .ok witness := by
  decide +kernel

theorem root_witness : publication.map.root = witness.root := by
  have entries : publication.map.entries = [([1], (Digest.sha256 [2]).bytes), ([3], [])] := rfl
  simp [CertifiedMap.root, CertifiedMap.tree, entries, CertifiedMap.layout, witness, root]

theorem check_root (signature key : Bytes) :
    policy.check (signedMessage publication.stateTree.root) signature key = .ok () := by
  simp [policy]

theorem accepted : Accepted policy evidence 1 certificate witness where
  decoded := decode_certificate
  signed := ⟨policy.rootKey, .root rfl, check_root _ _⟩
  shown := decode_witness
  timely := by
    refine ⟨1000000, ?_, by decide⟩
    rw [Certificate.time]
    simp [certificate, publication, Publication.stateTree, lookup_stateTree_time, Leb128.read_write]
  certified := by
    rw [← root_witness]
    simp [certificate, publication, Publication.stateTree, lookup_stateTree_data, evidence]

theorem verifyResponse_eq : verifyResponse policy evidence ⟨[1], [2]⟩ 1 = .ok witness :=
  verifyResponse_eq_ok_iff.mpr ⟨⟨certificate, accepted⟩, rfl⟩

end Sample

theorem accepted_response_backed_sample :
    Sample.policy.check.OnlyPublished Sample.policy.rootKey {Sample.publication} ∧
    verifyResponse Sample.policy Sample.evidence ⟨[1], [2]⟩ 1 = .ok Sample.witness ∧
    ∃ p ∈ ({Sample.publication} : Set Publication),
      p.Backs Sample.policy Sample.evidence ⟨[1], [2]⟩ 1 Sample.witness ∨
        Collision (Sample.evidence.messages ++ p.messages) :=
  ⟨Sample.onlyPublished, Sample.verifyResponse_eq,
    accepted_response_backed Sample.onlyPublished Sample.verifyResponse_eq⟩

end Certified
