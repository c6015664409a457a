import Certified.Proofs.Blob
import Certified.Proofs.CommandLine.Log
import Certified.Proofs.Json

/-!
A response can be verified from one file or from its parts. What is read is the same, and so is what is
expected of the payload, so that the two runs do not differ.
-/

namespace Certified.CommandLine

/-- What there is under a name: the content of a file, or standard input. -/
def Surroundings.content (s : Surroundings) (name : String) : Except FileError Bytes :=
  if (FileName.ofText name).isStandardInput then .ok s.stdin else s.file name

/-- Under the name there is a hexadecimal text of the bytes. -/
def Surroundings.HoldsHex (s : Surroundings) (name : String) (bytes : Bytes) : Prop :=
  ∃ chars, Blob.HexText chars bytes ∧ s.content name = .ok (Bytes.ofText (String.ofList chars))

/-- A response is there as the JSON of one file, and in parts. The parts are not both read from standard
input. -/
structure Surroundings.Stores (s : Surroundings) (r : CertifiedResponse)
    (response certificate witness : String) : Prop where
  whole : ∃ text, s.file response = .ok (Bytes.ofText text) ∧ CertifiedResponse.ofText? text = some r
  certificateNamed : certificate ≠ ""
  certificateHeld : s.HoldsHex certificate r.certificate
  witnessNamed : witness ≠ ""
  witnessHeld : s.HoldsHex witness r.witness
  apart : ¬ ((FileName.ofText certificate).isStandardInput ∧ (FileName.ofText witness).isStandardInput)

section

variable {s : Surroundings} {r : CertifiedResponse} {response certificate witness : String}

/-- Hexadecimal text is read as its bytes, and only standard input is used up. -/
theorem readBlob_of_holdsHex {name : String} {bytes : Bytes} (held : s.HoldsHex name bytes) :
    readBlob s name =
      .ok (bytes, if (FileName.ofText name).isStandardInput then { s with stdin := [] } else s) := by
  obtain ⟨chars, text, content⟩ := held
  have decoded := Blob.decode_of_hexText text
  unfold Surroundings.content at content
  unfold readBlob
  split at content
  · rename_i input
    rw [if_pos input, if_pos input, Except.ok.inj content, decoded]
  · rename_i input
    rw [if_neg input, if_neg input, content]
    simp only [decoded]

/-- A text that is still to be read is there after another one was read. -/
theorem Surroundings.HoldsHex.afterInput {name other : String} {bytes : Bytes} (held : s.HoldsHex name bytes)
    (apart : ¬ ((FileName.ofText other).isStandardInput ∧ (FileName.ofText name).isStandardInput)) :
    (if (FileName.ofText other).isStandardInput then { s with stdin := [] } else s).HoldsHex name bytes := by
  obtain ⟨chars, text, content⟩ := held
  refine ⟨chars, text, ?_⟩
  split
  · rename_i input
    have file : ¬ (FileName.ofText name).isStandardInput := fun own => apart ⟨input, own⟩
    rw [Surroundings.content, if_neg file] at content ⊢
    exact content
  · exact content

theorem Surroundings.Stores.readSource_response (h : s.Stores r response certificate witness) :
    readSource s (.response response) = .ok (r.certificate, r.witness, some r.response) := by
  obtain ⟨text, held, read⟩ := h.whole
  have decoded : Utf8.decode? (Bytes.ofText text) = some text := Utf8.decode?_eq_some_iff.mpr rfl
  simp only [readSource, readText, held, ok_bind, decoded, pure_eq_ok, mapError_ok, read]

theorem Surroundings.Stores.readSource_blobs (h : s.Stores r response certificate witness) :
    readSource s (.blobs certificate witness) = .ok (r.certificate, r.witness, none) := by
  have next := readBlob_of_holdsHex (h.witnessHeld.afterInput h.apart)
  simp only [readSource, readBlob_of_holdsHex h.certificateHeld, ok_bind, next, pure_eq_ok]

/-- What is verified for a response is the evidence that comes with it. -/
theorem Surroundings.Stores.evidence_eq (h : s.Stores r response certificate witness) {file : Option String}
    {options : VerifyOptions} {config : Config} {request : Request}
    (asks : Asks s file options config request) (source : options.source = .response response)
    (canister : Principal) : request.evidence canister = r.evidence canister := by
  obtain ⟨own, read, _⟩ := asks.source
  rw [source, h.readSource_response] at read
  obtain ⟨certificate, witness, _⟩ : r.certificate = request.certificate ∧ r.witness = request.witness ∧
    some r.response = own := by simpa using read
  rw [Request.evidence, CertifiedResponse.evidence, certificate, witness]

/-- The payload that is expected is the response's own, whether it comes with the response or is given. -/
theorem expectedPayload_inParts {options : VerifyOptions} (notAsked : options.expectPayload = none)
    (payload : String) :
    expectedPayload (options.inParts certificate witness payload) none =
      expectedPayload options (some payload) := by
  unfold expectedPayload
  rw [notAsked, VerifyOptions.inParts]
  cases options.key <;> rfl

/-- The two ways to give a response lead to the same answer and the same log, also where there is no answer: the
first error is the same one. -/
theorem Surroundings.Stores.runVerify_inParts (h : s.Stores r response certificate witness)
    {options : VerifyOptions} (source : options.source = .response response)
    (notAsked : options.expectPayload = none) (config : Option String) :
    runVerify s config (options.inParts certificate witness r.response) = runVerify s config options := by
  have whole : readSource s options.source = .ok (r.certificate, r.witness, some r.response) := by
    rw [source, h.readSource_response]
  have parts : readSource s (options.inParts certificate witness r.response).source =
      .ok (r.certificate, r.witness, none) :=
    h.readSource_blobs
  have payload : expectedPayload (options.inParts certificate witness r.response) none =
      expectedPayload options (some r.response) :=
    expectedPayload_inParts notAsked r.response
  unfold runVerify
  cases (loadConfig s config).mapError Failure.ofConfig with
  | error failure => rfl
  | ok config =>
    rw [Logged.silent_ok_bind, Logged.silent_ok_bind, whole, parts, Logged.silent_ok_bind, Logged.silent_ok_bind]
    simp only [payload]
    rfl

/-- A response and its parts are read as the same certificate and witness, and a run on the one does not differ
from the run on the others, whatever else is asked for: with any arguments that ask for the one and for the
others, and so with those that name the parts in the place of the response. The exit code, what is printed and what
is logged are the same. The JSON that is written for a response is one that it can be read from. -/
theorem run_response_eq_run_parts (held : s.Stores r response certificate witness) :
    readSource s (.response response) = .ok (r.certificate, r.witness, some r.response) ∧
    readSource s (.blobs certificate witness) = .ok (r.certificate, r.witness, none) ∧
    (∀ whole parts config verbose options, options.source = .response response →
      options.expectPayload = none →
      Invocation.ofArguments? whole = some ⟨config, verbose, .verify options⟩ →
      Invocation.ofArguments? parts =
        some ⟨config, verbose, .verify (options.inParts certificate witness r.response)⟩ →
      run s whole = run s parts) ∧
    (∀ rest config verbose options, options.expectPayload = none →
      Invocation.ofArguments? ("verify" :: written "response" response :: rest) =
        some ⟨config, verbose, .verify options⟩ →
      run s ("verify" :: written "response" response :: rest) =
        run s ("verify" :: (options.partsArguments certificate witness r.response ++ rest))) ∧
    CertifiedResponse.ofText? r.toJson.compact = some r ∧
    CertifiedResponse.ofText? (r.toJson.pretty 0) = some r := by
  have same {whole parts config verbose options} (source : options.source = .response response)
      (notAsked : options.expectPayload = none)
      (askedWhole : Invocation.ofArguments? whole = some ⟨config, verbose, .verify options⟩)
      (askedParts : Invocation.ofArguments? parts =
        some ⟨config, verbose, .verify (options.inParts certificate witness r.response)⟩) :
      run s whole = run s parts := by
    simp only [run, askedWhole, askedParts, Invocation.run, held.runVerify_inParts source notAsked config]
  refine ⟨held.readSource_response, held.readSource_blobs, fun _ _ _ _ _ => same, ?_, r.ofText?_toJson⟩
  intro rest config verbose options notAsked asked
  apply same (source_of_response asked) notAsked asked
  exact ofArguments?_parts asked notAsked held.certificateNamed held.witnessNamed r.response

end

namespace Sources.Sample

/-- The accepted request with its payload as a text. -/
def response : CertifiedResponse where
  response := "\u0002"
  certificate := Request.Sample.request.certificate
  witness := Request.Sample.request.witness

/-- The certificate's digits after the mark and before a line feed. -/
def certificateChars : List Char :=
  [] ++ (['0', 'x'] ++ Hex.digits response.certificate) ++ ['\n']

def configText : String :=
  "[trust]\nsignature_scheme = \"none\"\n[verification]\nmax_certificate_time_offset_ms = 0\n"

/-- The whole response over several lines, and its parts in a file and on standard input. -/
def surroundings : Surroundings where
  file name :=
    if name = "response.json" then .ok (Bytes.ofText (response.toJson.pretty 0))
    else if name = "icv.toml" then .ok (Bytes.ofText configText)
    else .ok (Bytes.ofText (String.ofList certificateChars))
  refusal _ := none
  stdin := Bytes.ofText (Hex.encode response.witness)
  rootKey := none
  now := 0

theorem isStandardInput_eq : (FileName.ofText "certificate.hex").isStandardInput = false ∧
    (FileName.ofText "-").isStandardInput = true := by
  decide +kernel

theorem certificate_ne_nil : response.certificate ≠ [] := by
  decide +kernel

theorem stores : surroundings.Stores response "response.json" "certificate.hex" "-" where
  whole := ⟨_, rfl, response.ofText?_toJson.2⟩
  certificateNamed := by decide
  certificateHeld := by
    have text : Blob.HexText certificateChars response.certificate :=
      .spelled certificate_ne_nil (by simp) (.inr rfl) (Hex.spells_digits response.certificate)
        (by simp [Text.Blank.isBlank])
    refine ⟨_, text, ?_⟩
    simp only [Surroundings.content, isStandardInput_eq.1, surroundings]
    simp
  witnessNamed := by decide
  witnessHeld := by
    refine ⟨_, Blob.hexText_encode response.witness, ?_⟩
    rw [Surroundings.content, if_pos isStandardInput_eq.2, surroundings, String.ofList_toList]
  apart := by simp [isStandardInput_eq.1]

def options : VerifyOptions where
  source := .response "response.json"
  canister := some .management
  rootKey := none
  maxOffset := none
  now := some 1
  key := some "\u0001"
  expectPayload := none
  json := true

/-- The arguments besides those for the response. -/
def others : List String :=
  ["--config=icv.toml", "-v", "--canister-id=aaaaa-aa", "--now-ms=1", "--key=\u0001", "--json"]

theorem asked : Invocation.ofArguments? ("verify" :: written "response" "response.json" :: others) =
    some ⟨some "icv.toml", 1, .verify options⟩ := by
  decide +kernel

theorem partsArguments_eq : options.partsArguments "certificate.hex" "-" "\u0002" =
    ["--certificate=certificate.hex", "--witness=-", "--expect-payload=\u0002"] := by
  decide +kernel

theorem loadConfig_eq : loadConfig surroundings (some "icv.toml") = .ok Request.Sample.config := by
  decide +kernel

theorem expectedPayload_eq :
    expectedPayload options (some response.response) = .ok Request.Sample.request.expected := by
  decide +kernel

/-- What is asked for with the response is the accepted request. -/
theorem asks : Asks surroundings (some "icv.toml") options Request.Sample.config Request.Sample.request where
  loaded := loadConfig_eq
  source := ⟨_, stores.readSource_response, expectedPayload_eq⟩
  rootKey := rfl
  canister := rfl
  maxOffset := rfl

theorem certificate_read :
    Certificate.decode Request.Sample.request.certificate = .ok Request.Sample.certificate ∧
      Request.Sample.certificate.time = .ok 1000000 := by
  decide +kernel

/-- The response is accepted. -/
theorem exists_success : ∃ success, (runVerify surroundings (some "icv.toml") options).result = .ok success := by
  obtain ⟨c, time, _, verified⟩ :=
    Request.verify_of_ok Request.Sample.resolves Request.Sample.verifyExpected_eq
  exact ⟨_, result_runVerify_eq_ok_iff.mpr ⟨_, _, _, asks, verified, rfl⟩⟩

/-- With `-v` all steps are logged, and that the signature was not checked. -/
theorem log_eq :
    (run surroundings ("verify" :: written "response" "response.json" :: others)).log =
      [.verifying .management 1, .unchecked, .timely 1 0 1, .witness .management, .verified .management] := by
  obtain ⟨c, time, backed, _⟩ :=
    Request.verify_of_ok Request.Sample.resolves Request.Sample.verifyExpected_eq
  obtain ⟨decoded, read⟩ := certificate_read
  obtain rfl : Request.Sample.certificate = c := Except.ok.inj (decoded.symm.trans backed.accepted.decoded)
  obtain rfl : 1000000 = time := Except.ok.inj (read.symm.trans backed.time)
  obtain ⟨key, _, logged⟩ := backed.log_verifyLogged options.now surroundings.now
  rw [log_run asked]
  change List.filter _ (runVerify surroundings (some "icv.toml") options).log = _
  rw [asks.log_runVerify, logged]
  rfl

end Sources.Sample

/-- One response that is accepted, whole and in parts. -/
theorem run_response_eq_run_parts_sample :
    Sources.Sample.surroundings.Stores Sources.Sample.response "response.json" "certificate.hex" "-" ∧
    (run Sources.Sample.surroundings
      ("verify" :: written "response" "response.json" :: Sources.Sample.others)).exitCode = 0 ∧
    run Sources.Sample.surroundings
        ("verify" :: written "response" "response.json" :: Sources.Sample.others) =
      run Sources.Sample.surroundings ("verify" :: (["--certificate=certificate.hex", "--witness=-",
        "--expect-payload=\u0002"] ++ Sources.Sample.others)) ∧
    (run Sources.Sample.surroundings
        ("verify" :: written "response" "response.json" :: Sources.Sample.others)).log =
      [.verifying .management 1, .unchecked, .timely 1 0 1, .witness .management, .verified .management] := by
  obtain ⟨_, _, _, same, _⟩ := run_response_eq_run_parts Sources.Sample.stores
  have done := (exitCode_run_eq_zero_iff Sources.Sample.asked).mpr Sources.Sample.exists_success
  have parts := same Sources.Sample.others (some "icv.toml") 1 Sources.Sample.options rfl Sources.Sample.asked
  rw [show Sources.Sample.response.response = "\u0002" from rfl, Sources.Sample.partsArguments_eq] at parts
  exact ⟨Sources.Sample.stores, done, parts, Sources.Sample.log_eq⟩

end Certified.CommandLine
