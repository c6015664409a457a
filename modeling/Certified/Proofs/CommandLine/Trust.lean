import Mathlib
import Certified.CommandLine.Run
import Certified.Proofs.CommandLine.Requests
import Certified.Proofs.Issuance
import Certified.Proofs.Leb128

/-!
Which key stands behind a report. The request's own key comes first, then the one in the configuration
file, then the one of the environment; a report says that signatures were checked only if they were
checked under that key, and says so where they were not.
-/

namespace Certified

open CommandLine

/-- The first root key on offer: the request's own, or else the one of the configuration file, or else the
one of the environment. The last two are hexadecimal text, and only the first text there is counts. -/
inductive FirstKey (given : Option Bytes) (file environment : Option String) : Bytes → Prop where
  | given {key : Bytes} (own : given = some key) : FirstKey given file environment key
  | file {text : String} {key : Bytes} (missing : given = none) (held : file = some text)
    (hex : Hex.decode (Text.Blank.trim text) = .ok key) : FirstKey given file environment key
  | environment {text : String} {key : Bytes} (missing : given = none) (notHeld : file = none)
    (set : environment = some text) (hex : Hex.decode (Text.Blank.trim text) = .ok key) :
    FirstKey given file environment key

namespace CommandLine

/-- The configuration as the file has it, before the environment is asked; without a file the default
one. -/
inductive OwnConfig (s : Surroundings) : Option String → Config → Prop where
  | default : OwnConfig s none {}
  | file {name text : String} {content : Bytes} {config : Config} (held : s.file name = .ok content)
    (spelled : Utf8.decode? content = some text) (read : Config.ofText text = .ok config) :
    OwnConfig s (some name) config

variable {s : Surroundings} {file : Option String} {config own : Config}

theorem loadConfig_eq_ok_iff :
    loadConfig s file = .ok config ↔ ∃ own, OwnConfig s file own ∧ own.withRootKey s.rootKey = config := by
  constructor
  · intro h
    cases file with
    | none =>
      cases h
      exact ⟨{}, .default, rfl⟩
    | some name =>
      rw [loadConfig] at h
      split at h
      · rename_i content held
        rw [Config.ofBytes] at h
        split at h
        · rename_i text spelled
          obtain ⟨own, read, made⟩ := map_eq_ok_iff.mp h
          exact ⟨own, .file held spelled read, made⟩
        · cases h
      · cases h
  · rintro ⟨own, held, rfl⟩
    cases held with
    | default => rfl
    | file held spelled read => simp [loadConfig, held, Config.ofBytes, spelled, read, Except.map]

/-- What the file says does not depend on the environment. -/
theorem OwnConfig.withEnvironment (h : OwnConfig s file own) (rootKey : Option String) :
    OwnConfig { s with rootKey } file own := by
  cases h with
  | default => exact .default
  | file held spelled read => exact .file held spelled read

end CommandLine

theorem Config.withRootKey_of_held {own : Config} {key : String} (held : own.rootKey = some key)
    (rootKey : Option String) : own.withRootKey rootKey = own := by
  rw [Config.withRootKey, held, Option.some_or, ← held]

/-- The key of a request under a loaded configuration is the first one on offer, if signatures are
checked. -/
theorem Request.ResolvesKey.firstKey {request : Request} {own : Config} {environment : Option String}
    {key : Bytes} (h : request.ResolvesKey (own.withRootKey environment) key)
    (checked : own.scheme ≠ .none) : FirstKey request.rootKey own.rootKey environment key := by
  cases h with
  | given own => exact .given own
  | configured missing held hex =>
    cases inFile : own.rootKey with
    | some text =>
      rw [Config.withRootKey_of_held inFile, inFile] at held
      cases held
      exact .file missing rfl hex
    | none =>
      simp only [Config.withRootKey, inFile, Option.none_or] at held
      exact .environment missing rfl held hex
  | unchecked missing notHeld scheme => exact absurd scheme checked

/-- The key and the scheme decide whether a signature is accepted, the offset of times does not. -/
theorem Certificate.checkSignature_eq (check : SignatureCheck) (rootKey : Bytes) (offset other : UInt64)
    (canister : Principal) (c : Certificate) :
    c.checkSignature ⟨check, rootKey, offset⟩ canister =
      c.checkSignature ⟨check, rootKey, other⟩ canister := rfl

/-- A line that is neither the first nor the last stands between two line feeds. -/
theorem joinLines_middle {before after : List String} (line : String) (first : before ≠ [])
    (last : after ≠ []) :
    joinLines (before ++ line :: after) = joinLines before ++ ("\n" ++ line ++ "\n") ++ joinLines after := by
  have rest : line :: after ≠ [] := List.cons_ne_nil line after
  rw [joinLines, String.intercalate_append_of_ne_nil first rest,
    String.intercalate_cons_of_ne_nil last]
  simp only [joinLines, String.append_assoc]

/-- A report on a signature that was not checked has a line that says so. -/
theorem VerificationReport.text_of_unchecked {report : VerificationReport}
    (h : report.signatureChecked = false) : ∃ before after,
      report.text = before ++ "\nSignature:      NOT CHECKED\n" ++ after := by
  let before := ["Certificate verified successfully",
    "Canister:       " ++ report.canister.toText,
    "Time:           " ++ timeText report.time,
    "Certified data: " ++ report.data.toHex] ++
    (report.subnetId.map fun id => "Delegated to:   subnet " ++ Hex.encode id).toList
  let after := (report.responseKey.map fun key => "Response:       payload matches key " ++
    key.toText).toList ++ ["Witness leaves: " ++ toString report.leaves.length] ++
    report.leaves.map ListedLeaf.line
  have lines : report.headLines ++ report.leaves.map ListedLeaf.line =
      before ++ "Signature:      NOT CHECKED" :: after := by
    simp [headLines, h, before, after]
  refine ⟨joinLines before, joinLines after, ?_⟩
  rw [text, lines, joinLines_middle _ (by simp [before]) (by simp [after])]
  rfl

/-- Where a configuration was loaded, a report that says that the signature was checked is backed by the
first key on offer: Ed25519 accepts the certificate under it for the canister of the report. A key in the
file is not touched by the environment, without any key there is no report, and a report that does not
say so comes from a scheme that checks nothing and has a line about it. -/
theorem signature_checked_backed {s : Surroundings} {file : Option String} {config : Config}
    (loaded : loadConfig s file = .ok config) (request : Request) (now : UInt64) :
    ∃ own, OwnConfig s file own ∧
      (∀ report, request.verify config now = .ok report → report.signatureChecked = true →
        ∃ key c, FirstKey request.rootKey own.rootKey s.rootKey key ∧
          request.canister.or own.canister = some report.canister ∧
          Certificate.decode request.certificate = .ok c ∧
          ∀ offset, c.checkSignature ⟨Ed25519.check, key, offset⟩ report.canister = .ok ()) ∧
      (∀ key, own.rootKey = some key → config.rootKey = some key ∧
        ∀ rootKey, loadConfig { s with rootKey } file = .ok config) ∧
      (request.rootKey = none → own.rootKey = none → s.rootKey = none → config.scheme = .ed25519 →
        ∀ report, request.verify config now ≠ .ok report) ∧
      (∀ report, request.verify config now = .ok report → report.signatureChecked = false →
        config.scheme = .none ∧ ∃ before after,
          report.text = before ++ "\nSignature:      NOT CHECKED\n" ++ after) := by
  obtain ⟨own, held, rfl⟩ := loadConfig_eq_ok_iff.mp loaded
  refine ⟨own, held, ?_, ?_, ?_, ?_⟩
  · intro report h checked
    obtain ⟨canister, policy, c, time, witness, backed, rfl⟩ := Request.verify_eq_ok_iff.mp h
    have scheme : own.scheme ≠ .none := of_decide_eq_true checked
    have ed25519 : policy.check = Ed25519.check := by
      rw [backed.resolved.check]
      cases named : own.scheme with
      | ed25519 => simp [Config.withRootKey, named, SignatureScheme.check]
      | none => exact absurd named scheme
    have accepted : c.checkSignature policy canister = .ok () :=
      Certificate.checkSignature_eq_ok_iff.mpr backed.accepted.signed
    refine ⟨policy.rootKey, c, backed.resolved.rootKey.firstKey scheme, backed.resolved.canister,
      backed.accepted.decoded, ?_⟩
    intro offset
    rw [← ed25519, Certificate.checkSignature_eq policy.check policy.rootKey offset policy.maxOffset]
    exact accepted
  · intro key inFile
    rw [Config.withRootKey_of_held inFile]
    refine ⟨inFile, fun rootKey => ?_⟩
    exact loadConfig_eq_ok_iff.mpr
      ⟨own, held.withEnvironment rootKey, Config.withRootKey_of_held inFile rootKey⟩
  · intro missing notHeld notSet scheme report h
    obtain ⟨canister, policy, c, time, witness, backed, rfl⟩ := Request.verify_eq_ok_iff.mp h
    have checked : own.scheme ≠ .none := by
      intro none
      simp [Config.withRootKey, none] at scheme
    cases backed.resolved.rootKey.firstKey checked with
    | given given => exact nomatch missing.symm.trans given
    | file _ inFile _ => exact nomatch notHeld.symm.trans inFile
    | environment _ _ set _ => exact nomatch notSet.symm.trans set
  · intro report h unchecked
    refine ⟨?_, VerificationReport.text_of_unchecked unchecked⟩
    obtain ⟨canister, policy, c, time, witness, backed, rfl⟩ := Request.verify_eq_ok_iff.mp h
    simpa [Request.reportOf] using unchecked

namespace Trust.Sample

/-- The key in the file, as text and as bytes. -/
def keyText : String :=
  "8a88e3dd7409f195fd52db2d3cba5d72ca6709bf1d94121bf3748801b40f6f5c"

def key : Bytes := [
    0x8a, 0x88, 0xe3, 0xdd, 0x74, 0x09, 0xf1, 0x95, 0xfd, 0x52, 0xdb, 0x2d, 0x3c, 0xba, 0x5d, 0x72,
    0xca, 0x67, 0x09, 0xbf, 0x1d, 0x94, 0x12, 0x1b, 0xf3, 0x74, 0x88, 0x01, 0xb4, 0x0f, 0x6f, 0x5c]

/-- The environment has another key, which is not asked for. -/
def surroundings : Surroundings where
  file _ := .ok (Bytes.ofText ("trust.root_key = \"" ++ keyText ++ "\""))
  refusal _ := none
  stdin := []
  rootKey := some "00"
  now := 0

def config : Config where
  rootKey := some keyText

theorem loadConfig_eq : loadConfig surroundings (some "") = .ok config := by
  decide +kernel

def canister : Principal :=
  ⟨[0, 0, 0, 0, 0, 0, 0, 2, 1, 1], by decide⟩

/-- A leaf and a pruned neighbour. -/
def witness : HashTree :=
  .fork (.labeled (Bytes.ofText "alice") (.leaf (List.replicate 32 1)))
    (.pruned ⟨List.replicate 32 2, by decide⟩)

/-- The signature of the key over the state tree for the witness. -/
def signature : Bytes := [
    0x6d, 0x7c, 0xc5, 0xa9, 0xa6, 0x34, 0x38, 0xd2, 0xc6, 0x46, 0x34, 0x22, 0xaa, 0xe0, 0x3b, 0xc7,
    0x38, 0x00, 0x3d, 0xfa, 0xca, 0xf0, 0x1f, 0x3a, 0x6d, 0xfd, 0x29, 0x67, 0x68, 0xfa, 0x1c, 0xde,
    0x9d, 0x3e, 0x51, 0xe9, 0xd5, 0x61, 0x93, 0x03, 0x83, 0xa7, 0x3f, 0xd5, 0xfc, 0x3a, 0x2f, 0x58,
    0xc5, 0x86, 0x1c, 0xd1, 0x25, 0x27, 0x9d, 0xba, 0x2d, 0x32, 0x21, 0xa6, 0x81, 0xf4, 0xd0, 0x06]

def certificate : Certificate where
  tree := stateTree canister witness.root 1700000000000000000
  signature := signature
  delegation := none

def request : Request where
  certificate := certificate.encode
  witness := witness.encode
  canister := some canister

def policy : Policy where
  check := Ed25519.check
  rootKey := key
  maxOffset := 50000

theorem decoded : Certificate.decode certificate.encode = .ok certificate ∧
    HashTree.decode witness.encode = .ok witness ∧ Hex.decode (Text.Blank.trim keyText) = .ok key := by
  decide +kernel

theorem check_eq : Ed25519.check (signedMessage certificate.tree.root) signature key = .ok () := by
  decide +kernel

theorem time_certificate : certificate.time = .ok 1700000000000000000 := by
  rw [Certificate.time]
  simp [certificate, lookup_stateTree_time, Leb128.read_write]

theorem resolves : request.Resolves config canister policy where
  canister := rfl
  check := rfl
  rootKey := .configured rfl rfl decoded.2.2
  maxOffset := rfl

theorem accepted : Accepted policy (request.evidence canister) 1700000000000 certificate witness where
  decoded := decoded.1
  signed := ⟨key, .root rfl, check_eq⟩
  shown := decoded.2.1
  timely := ⟨_, time_certificate, by decide⟩
  certified := by simp [certificate, lookup_stateTree_data, Request.evidence]

/-- What the command reports. -/
def report : VerificationReport :=
  request.reportOf config canister certificate 1700000000000000000 witness

theorem verify_eq : request.verify config 1700000000000 = .ok report :=
  Request.verify_eq_ok_iff.mpr
    ⟨_, _, _, _, _, ⟨resolves, accepted, by simp [request], time_certificate⟩, rfl⟩

end Trust.Sample

/-- The key in the file backs a report while the environment has another one. -/
theorem signature_checked_backed_sample :
    loadConfig Trust.Sample.surroundings (some "") = .ok Trust.Sample.config ∧
    Trust.Sample.request.verify Trust.Sample.config 1700000000000 = .ok Trust.Sample.report ∧
    Trust.Sample.report.signatureChecked = true ∧
    ∃ own, OwnConfig Trust.Sample.surroundings (some "") own ∧ ∃ key c,
      FirstKey Trust.Sample.request.rootKey own.rootKey (some "00") key ∧
      Certificate.decode Trust.Sample.request.certificate = .ok c ∧
      c.checkSignature ⟨Ed25519.check, key, 0⟩ Trust.Sample.report.canister = .ok () := by
  have checked : Trust.Sample.report.signatureChecked = true := rfl
  obtain ⟨own, held, backed, _⟩ :=
    signature_checked_backed Trust.Sample.loadConfig_eq Trust.Sample.request 1700000000000
  obtain ⟨key, c, first, _, decoded, accepted⟩ := backed _ Trust.Sample.verify_eq checked
  exact ⟨Trust.Sample.loadConfig_eq, Trust.Sample.verify_eq, checked, own, held, key, c, first, decoded,
    accepted 0⟩

end Certified
