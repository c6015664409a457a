import Certified.Proofs.CommandLine.Requests
import Certified.Proofs.HashTree.Leaves
import Certified.Proofs.HashTree.Pruning
import Certified.Proofs.LabelPath
import Certified.Proofs.Principal

/-!
A report says of its request what is so: what it says of the certificate and of the witness is read from
them, and its texts stand for what they were written for.
-/

namespace Certified

/-- The line of a report stands for a leaf: its path reads as the leaf's, and its value is written in
lowercase hexadecimal. -/
structure ListedLeaf.StandsFor (line : ListedLeaf) (leaf : List Label × Bytes) : Prop where
  path : LabelPath.ofText line.path = .ok leaf.1
  value : Hex.Writes line.value leaf.2

/-- What a report says is so of the certificate and the witness of its request. -/
structure VerificationReport.Truthful (report : VerificationReport) (request : Request) (config : Config)
    (now : UInt64) (c : Certificate) (witness : HashTree) : Prop where
  decoded : Certificate.decode request.certificate = .ok c
  shown : HashTree.decode request.witness = .ok witness
  canister : request.canister.or config.canister = some report.canister
  canisterText : Principal.ofText report.canister.toText = .ok report.canister
  data : ∃ value, Hex.Writes report.data.toHex value ∧
    c.tree.lookup [Bytes.ofText "canister", report.canister.bytes, Bytes.ofText "certified_data"] =
      .found value
  time : c.time = .ok report.time
  timely : Timely (request.maxOffset.getD config.maxOffset) now report.time
  leaves : ∃ rows, witness.ListsLeaves rows ∧ List.Forall₂ ListedLeaf.StandsFor report.leaves rows
  noResponse : request.expected = none → report.responseKey = none
  response : ∀ expected ∈ request.expected, ∃ key, report.responseKey = some key ∧
    Label.ofText key.toText = .ok expected.key ∧
    ∃ line ∈ report.leaves, line.path = key.toText ∧
      Hex.Writes line.value (Digest.sha256 expected.payload).bytes
  summary : ∃ summary, inspectCertificate request.certificate = .ok summary ∧
    summary.time = some report.time ∧ summary.subnetId = report.subnetId

theorem HashTree.forall₂_listing (t : HashTree) :
    List.Forall₂ ListedLeaf.StandsFor t.listing t.paths := by
  rw [listing, List.forall₂_map_left_iff, List.forall₂_same]
  intro leaf _
  exact ⟨LabelPath.ofText_toText leaf.1, Hex.writes_encode leaf.2⟩

/-- What is found under one label is listed with the label's text. -/
theorem HashTree.mem_listing_of_lookup {t : HashTree} {label : Label} {value : Bytes}
    (found : t.lookup [label] = .found value) :
    { path := label.toText, value := Hex.encode value } ∈ t.listing := by
  refine List.mem_map.mpr ⟨([label], value), mem_paths_of_lookup found, ?_⟩
  rw [← LabelPath.toText_singleton]

/-- The inspection of a certificate agrees with what was read from it. -/
theorem inspectCertificate_of_decode {certificate : Bytes} {c : Certificate}
    (decoded : Certificate.decode certificate = .ok c) : inspectCertificate certificate = .ok c.summary := by
  rw [inspectCertificate, decoded, mapError_ok, ok_bind, pure_eq_ok]

namespace Request

theorem Backed.truthful {request : Request} {config : Config} {now : UInt64} {canister : Principal}
    {policy : Policy} {c : Certificate} {time : UInt64} {witness : HashTree}
    (backed : request.Backed config now canister policy c time witness) :
    (request.reportOf config canister c time witness).Truthful request config now c witness := by
  obtain ⟨resolved, accepted, expected, read⟩ := backed
  refine
    { decoded := accepted.decoded
      shown := accepted.shown
      canister := resolved.canister
      canisterText := canister.ofText_toText
      data := ⟨witness.root.bytes, Hex.writes_encode _, accepted.certified⟩
      time := read
      timely := ?_
      leaves := ⟨witness.paths, HashTree.listsLeaves_iff.mpr rfl, witness.forall₂_listing⟩
      noResponse := ?_
      response := ?_
      summary := ⟨c.summary, inspectCertificate_of_decode accepted.decoded, ?_, rfl⟩ }
  · obtain ⟨nanos, readAgain, timely⟩ := accepted.timely
    rw [read] at readAgain
    cases readAgain
    rw [← resolved.maxOffset]
    exact timely
  · intro none
    rw [reportOf, none, Option.map_none]
  · intro asked mem
    refine ⟨asked.key, ?_, asked.key.ofText_toText, ?_⟩
    · rw [reportOf, Option.mem_def.mp mem, Option.map_some]
    · exact ⟨_, HashTree.mem_listing_of_lookup (expected asked mem), rfl, Hex.writes_encode _⟩
  · rw [Certificate.summary, read]
    rfl

/-- Whatever request is reported on, the report is truthful. -/
theorem report_truthful (request : Request) (config : Config) (now : UInt64) (report : VerificationReport)
    (h : request.verify config now = .ok report) :
    ∃ c witness, report.Truthful request config now c witness := by
  obtain ⟨canister, policy, c, time, witness, backed, rfl⟩ := verify_eq_ok_iff.mp h
  exact ⟨c, witness, backed.truthful⟩

/-- One request that is accepted, with a payload and a pruned entry. -/
theorem report_truthful_sample :
    ∃ report, Sample.request.verify Sample.config 1 = .ok report ∧
      report.canister = Principal.management ∧ report.responseKey = some [1] ∧
      report.leaves = Sample.witness.listing ∧
      ∃ c witness, report.Truthful Sample.request Sample.config 1 c witness := by
  obtain ⟨c, time, _, made⟩ := verify_of_ok Sample.resolves Sample.verifyExpected_eq
  exact ⟨_, made, rfl, rfl, rfl, report_truthful Sample.request Sample.config 1 _ made⟩

end Request
end Certified
