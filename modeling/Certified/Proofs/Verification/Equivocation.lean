import Certified.Proofs.HashTree.Overlay
import Certified.Proofs.Verification.Issued

/-!
One root, one value. Trees with one root, and so witnesses of one certificate, never show two values at a
path that leads to one node of what they show together. Where a label is there twice they can: each of
them may hide the value that the other one shows.
-/

namespace Certified

open HashTree

/-- Witnesses accepted for the data of one canister under one certificate have one root. -/
theorem root_eq_of_verify {policy policy' : Policy} {evidence evidence' : Evidence} {now now' : UInt64}
    {s t : HashTree} (canister : evidence.canister = evidence'.canister)
    (certificate : evidence.certificate = evidence'.certificate)
    (hs : verify policy evidence now = .ok s) (ht : verify policy' evidence' now' = .ok t) :
    s.root = t.root := by
  obtain ⟨c, accepted⟩ := verify_eq_ok_iff.mp hs
  obtain ⟨c', accepted'⟩ := verify_eq_ok_iff.mp ht
  have hc : c = c' :=
    Except.ok.inj (accepted.decoded.symm.trans (certificate ▸ accepted'.decoded))
  subst hc
  have certified := canister ▸ accepted.certified
  exact Digest.ext (Answer.found.inj (certified.symm.trans accepted'.certified))

theorem found_eq_or_collision {s t : HashTree} (h : s.root = t.root) {path : List Label}
    (single : SingleAt path s t) {v w : Bytes} (hs : s.lookup path = .found v)
    (ht : t.lookup path = .found w) : v = w ∨ Collision (s.messages ++ t.messages) := by
  by_cases hc : Collision (s.messages ++ t.messages)
  · exact .inr hc
  · exact .inl (CollisionFree.found_eq hc h single hs ht)

/-- A root commits to one value at each path that leads to one node, as every path does where labels are
distinct; so no two payloads pass under one key against one certificate. -/
theorem root_commits_to_values :
    (∀ (s t : HashTree) (path : List Label) (v w : Bytes), s.root = t.root → SingleAt path s t →
      s.lookup path = .found v → t.lookup path = .found w →
      v = w ∨ Collision (s.messages ++ t.messages)) ∧
    (∀ (policy policy' : Policy) (evidence evidence' : Evidence) (now now' : UInt64) (s t : HashTree)
      (key : Label) (payload payload' : Bytes), evidence.canister = evidence'.canister →
      evidence.certificate = evidence'.certificate → verify policy evidence now = .ok s →
      verify policy' evidence' now' = .ok t → SingleAt [key] s t →
      s.checkPayload ⟨key, payload⟩ = .ok () → t.checkPayload ⟨key, payload'⟩ = .ok () →
      Digest.sha256 payload = Digest.sha256 payload' ∨ Collision (s.messages ++ t.messages)) ∧
    ∀ (s t : HashTree) (path : List Label), (overlay s t).DistinctLabels → SingleAt path s t := by
  refine ⟨?_, ?_, fun s t path distinct => distinct.length_nodesAt_le path⟩
  · intro s t path v w h single hs ht
    exact found_eq_or_collision h single hs ht
  · intro policy policy' evidence evidence' now now' s t key payload payload' canister certificate
      accepted accepted' single hs ht
    have root : s.root = t.root := root_eq_of_verify canister certificate accepted accepted'
    have found := checkPayload_eq_ok_iff.mp hs
    have found' := checkPayload_eq_ok_iff.mp ht
    exact (found_eq_or_collision root single found found').imp_left Digest.ext

/-- Messages with different digests do not collide. -/
theorem not_collision_of_nodup {messages : List Bytes} (h : (messages.map Digest.sha256).Nodup) :
    ¬ Collision messages := by
  rintro ⟨x, hx, y, hy, hne, heq⟩
  exact hne (List.inj_on_of_nodup_map h hx hy heq)

namespace Equivocation

/-- A tree with one label twice, over the digests of two payloads. -/
def both : HashTree :=
  .fork (.labeled [1] (.leaf (Digest.sha256 [2]).bytes)) (.labeled [1] (.leaf (Digest.sha256 [3]).bytes))

/-- The value that is found first is pruned. -/
def second : HashTree :=
  .fork (HashTree.labeled [1] (.leaf (Digest.sha256 [2]).bytes)).prune
    (.labeled [1] (.leaf (Digest.sha256 [3]).bytes))

theorem pruning : Pruning both second :=
  .fork (.here _) (.refl _)

theorem digests_nodup : (both.messages.map Digest.sha256).Nodup := by
  decide +kernel

theorem collisionFree : ¬ Collision (both.messages ++ second.messages) := by
  intro collision
  have sub : both.messages ++ second.messages ⊆ both.messages :=
    List.append_subset.mpr ⟨List.Subset.refl _, pruning.messages_subset⟩
  exact not_collision_of_nodup digests_nodup (collision.mono sub)

theorem payloads_ne : Digest.sha256 [2] ≠ Digest.sha256 [3] := by
  decide +kernel

/-- A tree with distinct labels. -/
def single : HashTree :=
  .fork (.labeled [1] (.leaf (Digest.sha256 [2]).bytes)) (.labeled [4] (.leaf [3]))

/-- What is beside the value is pruned. -/
def revealed : HashTree :=
  .fork (.labeled [1] (.leaf (Digest.sha256 [2]).bytes)) (HashTree.labeled [4] (.leaf [3])).prune

theorem pruning_revealed : Pruning single revealed :=
  .fork (.refl _) (.here _)

def signer : Signer where
  publicKey := []
  sign _ := []

def policy : Policy where
  check := .none
  rootKey := []
  maxOffset := 0

/-- The witness goes with the root of the certified tree, signed for the management canister. -/
def evidence (certified witness : HashTree) : Evidence where
  canister := Principal.management
  certificate := signer.certify Principal.management certified.root 1000000
  witness := witness.encode

theorem evidence_canister (certified s t : HashTree) :
    (evidence certified s).canister = (evidence certified t).canister :=
  rfl

theorem evidence_certificate (certified s t : HashTree) :
    (evidence certified s).certificate = (evidence certified t).certificate :=
  rfl

/-- Every small tree with the certified root is accepted. -/
theorem verify_evidence {certified witness : HashTree} (root : witness.root = certified.root)
    (shallow : witness.height ≤ Cbor.depthLimit) (short : witness.encode.length < UInt64.size)
    (certificate_short :
      (signer.certify Principal.management certified.root 1000000).length < UInt64.size) :
    verify policy (evidence certified witness) 1 = .ok witness := by
  have issued : Issued policy signer none Principal.management certified.root 1000000
      (evidence certified witness) :=
    ⟨rfl, SignatureCheck.honors_none signer, fun _ h => (nomatch h), rfl, certificate_short⟩
  have serves : Serves none (evidence certified witness).canister := fun _ h => nomatch h
  exact verify_eq_ok_iff.mpr
    ⟨_, issued.accepted serves (HashTree.decode_encode shallow short) (by decide) rfl root⟩

theorem verify_both : verify policy (evidence both both) 1 = .ok both :=
  verify_evidence rfl (by decide) (by decide +kernel) (by decide +kernel)

theorem verify_second : verify policy (evidence both second) 1 = .ok second :=
  verify_evidence pruning.root_eq (by decide) (by decide +kernel) (by decide +kernel)

theorem verify_single : verify policy (evidence single single) 1 = .ok single :=
  verify_evidence rfl (by decide) (by decide +kernel) (by decide +kernel)

theorem verify_revealed : verify policy (evidence single revealed) 1 = .ok revealed :=
  verify_evidence pruning_revealed.root_eq (by decide) (by decide +kernel) (by decide +kernel)

end Equivocation

/-- Two witnesses of one certificate, of which one hides a part, both show the payload. -/
theorem root_commits_to_values_sample :
    verify Equivocation.policy (Equivocation.evidence Equivocation.single Equivocation.single) 1 =
        .ok Equivocation.single ∧
      verify Equivocation.policy (Equivocation.evidence Equivocation.single Equivocation.revealed) 1 =
        .ok Equivocation.revealed ∧
      Equivocation.single.checkPayload ⟨[1], [2]⟩ = .ok () ∧
      Equivocation.revealed.checkPayload ⟨[1], [2]⟩ = .ok () ∧
      (Digest.sha256 [2] = Digest.sha256 [2] ∨
        Collision (Equivocation.single.messages ++ Equivocation.revealed.messages)) := by
  obtain ⟨-, payloads, single⟩ := root_commits_to_values
  have passes : Equivocation.single.checkPayload ⟨[1], [2]⟩ = .ok () :=
    checkPayload_eq_ok_iff.mpr rfl
  have passes' : Equivocation.revealed.checkPayload ⟨[1], [2]⟩ = .ok () :=
    checkPayload_eq_ok_iff.mpr rfl
  have distinct : (overlay Equivocation.single Equivocation.revealed).DistinctLabels := by
    rw [show overlay Equivocation.single Equivocation.revealed = Equivocation.single from rfl]
    decide
  exact ⟨Equivocation.verify_single, Equivocation.verify_revealed, passes, passes',
    payloads Equivocation.policy Equivocation.policy
      (Equivocation.evidence Equivocation.single Equivocation.single)
      (Equivocation.evidence Equivocation.single Equivocation.revealed) 1 1 Equivocation.single
      Equivocation.revealed [1] [2] [2] (Equivocation.evidence_canister _ _ _)
      (Equivocation.evidence_certificate _ _ _) Equivocation.verify_single Equivocation.verify_revealed
      (single _ _ _ distinct) passes passes'⟩

/-- Where a label is there twice, two trees with one root can show two values at a path, and two witnesses
of one certificate two payloads under a key. -/
theorem exists_two_values_under_one_root :
    (¬ ∀ (s t : HashTree) (path : List Label) (v w : Bytes), s.root = t.root →
      s.lookup path = .found v → t.lookup path = .found w →
      v = w ∨ Collision (s.messages ++ t.messages)) ∧
    ¬ ∀ (policy policy' : Policy) (evidence evidence' : Evidence) (now now' : UInt64) (s t : HashTree)
      (key : Label) (payload payload' : Bytes), evidence.canister = evidence'.canister →
      evidence.certificate = evidence'.certificate → verify policy evidence now = .ok s →
      verify policy' evidence' now' = .ok t →
      s.checkPayload ⟨key, payload⟩ = .ok () → t.checkPayload ⟨key, payload'⟩ = .ok () →
      Digest.sha256 payload = Digest.sha256 payload' ∨ Collision (s.messages ++ t.messages) := by
  have first : Equivocation.both.lookup [[1]] = .found (Digest.sha256 [2]).bytes := rfl
  have other : Equivocation.second.lookup [[1]] = .found (Digest.sha256 [3]).bytes := rfl
  constructor
  · intro committed
    have root : Equivocation.both.root = Equivocation.second.root := Equivocation.pruning.root_eq.symm
    rcases committed _ _ _ _ _ root first other with same | collision
    · exact Equivocation.payloads_ne (Digest.ext same)
    · exact Equivocation.collisionFree collision
  · intro committed
    have passes : Equivocation.both.checkPayload ⟨[1], [2]⟩ = .ok () :=
      checkPayload_eq_ok_iff.mpr first
    have passes' : Equivocation.second.checkPayload ⟨[1], [3]⟩ = .ok () :=
      checkPayload_eq_ok_iff.mpr other
    rcases committed Equivocation.policy Equivocation.policy
        (Equivocation.evidence Equivocation.both Equivocation.both)
        (Equivocation.evidence Equivocation.both Equivocation.second) 1 1 Equivocation.both
        Equivocation.second [1] [2] [3] (Equivocation.evidence_canister _ _ _)
        (Equivocation.evidence_certificate _ _ _)
        Equivocation.verify_both Equivocation.verify_second passes passes' with same | collision
    · exact Equivocation.payloads_ne same
    · exact Equivocation.collisionFree collision

end Certified
