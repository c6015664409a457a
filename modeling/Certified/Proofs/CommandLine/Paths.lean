import Certified.Proofs.Blob
import Certified.Proofs.CommandLine.Log
import Certified.Proofs.CommandLine.Report

/-!
Paths that are printed can be given back. Whatever path a report or a summary lists, its text stands for it
and for no other path, and `lookup` takes the text and answers with what the path leads to.
-/

namespace Certified

theorem LabelPath.toText_injective : Function.Injective LabelPath.toText := by
  intro path other same
  have read := ofText_toText path
  rw [same, ofText_toText] at read
  exact (Except.ok.inj read).symm

theorem HashTree.exists_path_of_mem_listing {t : HashTree} {line : ListedLeaf} (mem : line ∈ t.listing) :
    ∃ path, line.path = LabelPath.toText path := by
  obtain ⟨leaf, _, rfl⟩ := List.mem_map.mp mem
  exact ⟨leaf.1, rfl⟩

/-- The leaves of a report are those of a tree. -/
theorem Request.exists_listing_of_verify {request : Request} {config : Config} {now : UInt64}
    {report : VerificationReport} (h : request.verify config now = .ok report) :
    ∃ t : HashTree, report.leaves = t.listing := by
  obtain ⟨canister, policy, c, time, witness, backed, rfl⟩ := verify_eq_ok_iff.mp h
  exact ⟨witness, rfl⟩

theorem exists_listing_of_inspectCertificate {certificate : Bytes} {summary : CertificateSummary}
    (h : inspectCertificate certificate = .ok summary) : ∃ t : HashTree, summary.leaves = t.listing := by
  obtain ⟨c, decoded, made⟩ := bind_eq_ok_iff.mp h
  cases made
  exact ⟨c.tree, rfl⟩

namespace CommandLine

variable {s : Surroundings} {arguments : List String} {invocation : Invocation}

/-- A run that prints one text and logs these events. -/
def Outcome.printing (text : String) (log : List LogEvent := []) : Outcome :=
  { exitCode := 0, stdout := text ++ "\n", log, stderr := "", written := none }

theorem run_of_printed {text : String} (asked : Invocation.ofArguments? arguments = some invocation)
    (answered : (invocation.run s).result = .ok (printed text)) :
    run s arguments = .printing text ((invocation.run s).log.filter (s.shows invocation.verbose)) := by
  simp only [run, asked, answered]
  rfl

theorem run_of_silent {text : String} (asked : Invocation.ofArguments? arguments = some invocation)
    (answered : invocation.run s = .silent (.ok (printed text))) : run s arguments = .printing text := by
  have printed := run_of_printed asked (congrArg Logged.result answered)
  rwa [answered] at printed

/-! ### What is listed -/

/-- What a run lists: the leaves of the report or of the summary that it prints. -/
inductive Lists (s : Surroundings) (arguments : List String) : List ListedLeaf → Prop where
  | verify {file : Option String} {verbose : Nat} {options : VerifyOptions} {request : Request}
    {config : Config} {now : UInt64} {report : VerificationReport} {log : List LogEvent}
    (asked : Invocation.ofArguments? arguments = some ⟨file, verbose, .verify options⟩)
    (verified : request.verify config now = .ok report)
    (printed : run s arguments =
      .printing (if options.json then report.toJson.pretty 0 else report.text) log) :
    Lists s arguments report.leaves
  | inspect {file : Option String} {verbose : Nat} {name : String} {json : Bool} {certificate : Bytes}
    {summary : CertificateSummary}
    (asked : Invocation.ofArguments? arguments = some ⟨file, verbose, .inspect name json⟩)
    (inspected : inspectCertificate certificate = .ok summary)
    (printed : run s arguments = .printing (if json then summary.toJson.pretty 0 else summary.text)) :
    Lists s arguments summary.leaves

/-- A run of `verify` that succeeds lists the leaves of its report. -/
theorem exists_lists_of_verify {file : Option String} {verbose : Nat} {options : VerifyOptions}
    (asked : Invocation.ofArguments? arguments = some ⟨file, verbose, .verify options⟩)
    (done : (run s arguments).exitCode = 0) : ∃ leaves, Lists s arguments leaves := by
  obtain ⟨success, answered⟩ := (exitCode_run_eq_zero_iff asked).mp done
  obtain ⟨config, request, report, _, verified, rfl⟩ := result_runVerify_eq_ok_iff.mp answered
  exact ⟨report.leaves, .verify asked verified (run_of_printed asked answered)⟩

/-- So does a run of `inspect` with the leaves of the certificate. -/
theorem exists_lists_of_inspect {file : Option String} {verbose : Nat} {name : String} {json : Bool}
    (asked : Invocation.ofArguments? arguments = some ⟨file, verbose, .inspect name json⟩)
    (done : (run s arguments).exitCode = 0) : ∃ leaves, Lists s arguments leaves := by
  obtain ⟨success, answered⟩ := (exitCode_run_eq_zero_iff asked).mp done
  obtain ⟨⟨certificate, after⟩, _, next⟩ := bind_eq_ok_iff.mp answered
  obtain ⟨summary, inspected, made⟩ := bind_eq_ok_iff.mp next
  cases made
  exact ⟨summary.leaves, .inspect asked (mapError_eq_ok_iff.mp inspected) (run_of_printed asked answered)⟩

theorem Lists.exists_path {leaves : List ListedLeaf} (h : Lists s arguments leaves) {line : ListedLeaf}
    (mem : line ∈ leaves) : ∃ path, line.path = LabelPath.toText path := by
  cases h with
  | verify _ verified _ =>
    obtain ⟨t, same⟩ := Request.exists_listing_of_verify verified
    exact HashTree.exists_path_of_mem_listing (same ▸ mem)
  | inspect _ inspected _ =>
    obtain ⟨t, same⟩ := exists_listing_of_inspectCertificate inspected
    exact HashTree.exists_path_of_mem_listing (same ▸ mem)

/-! ### What is looked up -/

/-- Under the name of a file, or on standard input, there is a tree. -/
structure Surroundings.HoldsTree (s : Surroundings) (file : String) (t : HashTree) : Prop where
  named : file ≠ ""
  held : ∃ content after, readBlob s file = .ok (content, after) ∧ HashTree.decode content = .ok t

/-- The arguments look a text up in a file. After two dashes any text is taken as it is, also one that
begins with a dash. -/
inductive LookupArguments (file text : String) : List String → Prop where
  | afterDashes : LookupArguments file text ["lookup", "--", file, text]
  | plain (fileValue : mayBeValue file) (textValue : mayBeValue text) :
    LookupArguments file text ["lookup", file, text]

theorem LookupArguments.asked {file text : String} (h : LookupArguments file text arguments)
    (named : file ≠ "") : Invocation.ofArguments? arguments = some ⟨none, 0, .lookup file text⟩ := by
  have command (rest : List String) : splitCommand? commonOptions ("lookup" :: rest) =
      some { given := [], late := false, command := some ("lookup", rest) } :=
    splitCommand?_of_mayBeValue (by decide) rest
  have collected : ∃ rest, arguments = "lookup" :: rest ∧
      collect? ([] ++ commonOptions) rest = some ([], [file, text]) := by
    cases h with
    | afterDashes => exact ⟨_, rfl, by rw [collect?, if_pos rfl]⟩
    | plain fileValue textValue =>
      exact ⟨_, rfl, collect?_of_mayBeValue (by simp [fileValue, textValue])⟩
  obtain ⟨rest, rfl, collected⟩ := collected
  have known : optionsOf? "lookup" = some [] := rfl
  have noConfig : valueOf? "config" fileName? [] = some none := rfl
  simp only [Invocation.ofArguments?, command, known, collected, noConfig, command?, fileName?_of_ne named,
    Option.bind_eq_bind, Option.bind_some, Option.map_some, Option.or_none]
  rfl

/-- A text that reads as a path is looked up as that path. -/
theorem run_lookup {file text : String} {path : List Label} {t : HashTree}
    (given : LookupArguments file text arguments) (holds : s.HoldsTree file t)
    (read : LabelPath.ofText text = .ok path) : run s arguments = .printing (t.lookup path).text := by
  obtain ⟨content, after, found, decoded⟩ := holds.held
  refine run_of_silent (given.asked holds.named) ?_
  simp only [Invocation.run, runLookup, found, ok_bind, read, mapError_ok, lookupWitness, decoded, pure_eq_ok]

/-- The text of a path stands for the path and for no other, and so does the text of a label. A run of
`verify` or of `inspect` that succeeds lists leaves, and the path of each of them is such a text: looked up
in any tree, it leads where the path leads. -/
theorem printed_paths_read_back :
    (∀ path, LabelPath.ofText (LabelPath.toText path) = .ok path) ∧
    (∀ label : Label, Label.ofText label.toText = .ok label) ∧
    Function.Injective LabelPath.toText ∧
    (∀ s arguments file verbose options,
      Invocation.ofArguments? arguments = some ⟨file, verbose, .verify options⟩ →
      (run s arguments).exitCode = 0 → ∃ leaves, Lists s arguments leaves) ∧
    (∀ s arguments file verbose name json,
      Invocation.ofArguments? arguments = some ⟨file, verbose, .inspect name json⟩ →
      (run s arguments).exitCode = 0 → ∃ leaves, Lists s arguments leaves) ∧
    ∀ s arguments leaves, Lists s arguments leaves → ∀ line ∈ leaves, ∃ path,
      line.path = LabelPath.toText path ∧
      ∀ s' file t arguments', s'.HoldsTree file t → LookupArguments file line.path arguments' →
        run s' arguments' = .printing (t.lookup path).text := by
  refine ⟨LabelPath.ofText_toText, Label.ofText_toText, LabelPath.toText_injective,
    fun _ _ _ _ _ => exists_lists_of_verify, fun _ _ _ _ _ _ => exists_lists_of_inspect, ?_⟩
  intro s arguments leaves listed line mem
  obtain ⟨path, shown⟩ := listed.exists_path mem
  refine ⟨path, shown, fun s' file t arguments' holds given => run_lookup given holds ?_⟩
  rw [shown, LabelPath.ofText_toText]

namespace Paths.Sample

/-- A leaf under labels that begin with a dash, have a slash, and are empty. -/
def tree : HashTree :=
  .labeled (Bytes.ofText "-x") (.labeled (Bytes.ofText "a/b") (.labeled [] (.leaf [7])))

def path : List Label := [Bytes.ofText "-x", Bytes.ofText "a/b", []]

def certificate : Certificate where
  tree := tree
  signature := []
  delegation := none

def surroundings : Surroundings where
  file name := .ok (if name = "tree" then tree.encode else certificate.encode)
  refusal _ := none
  stdin := []
  rootKey := none
  now := 0

theorem decoded : HashTree.decode tree.encode = .ok tree ∧
    Certificate.decode certificate.encode = .ok certificate := by
  decide +kernel

theorem notInput : (FileName.ofText "tree").isStandardInput = false ∧
    (FileName.ofText "certificate").isStandardInput = false := by
  decide +kernel

theorem toText_path : LabelPath.toText path = "-x/hex:612f62/hex:" := by
  decide +kernel

theorem holdsTree : surroundings.HoldsTree "tree" tree where
  named := by decide
  held := ⟨tree.encode, surroundings, by
    simp [readBlob, notInput.1, surroundings, Blob.decode_of_tree decoded.1], decoded.1⟩

theorem asked : Invocation.ofArguments? ["inspect", "certificate"] =
    some ⟨none, 0, .inspect "certificate" false⟩ := by
  decide +kernel

theorem inspected : inspectCertificate certificate.encode = .ok certificate.summary :=
  inspectCertificate_of_decode decoded.2

theorem printed : run surroundings ["inspect", "certificate"] = .printing certificate.summary.text := by
  refine run_of_silent asked ?_
  simp [Invocation.run, runInspect, readBlob, notInput.2, surroundings,
    Blob.decode_of_certificate decoded.2, inspected]

end Paths.Sample

/-- The path of the leaf is taken after two dashes and leads to the leaf. -/
theorem printed_paths_read_back_sample :
    Lists Paths.Sample.surroundings ["inspect", "certificate"] [⟨"-x/hex:612f62/hex:", "07"⟩] ∧
    run Paths.Sample.surroundings ["lookup", "--", "tree", "-x/hex:612f62/hex:"] = .printing "07" := by
  have listed : Lists Paths.Sample.surroundings ["inspect", "certificate"]
      [⟨"-x/hex:612f62/hex:", "07"⟩] := by
    have leaves : Paths.Sample.certificate.summary.leaves = [⟨"-x/hex:612f62/hex:", "07"⟩] := by
      decide +kernel
    rw [← leaves]
    exact .inspect Paths.Sample.asked Paths.Sample.inspected Paths.Sample.printed
  obtain ⟨_, _, injective, _, _, feeds⟩ := printed_paths_read_back
  obtain ⟨path, shown, answers⟩ := feeds _ _ _ listed _ List.mem_cons_self
  have same : Paths.Sample.path = path := injective (Paths.Sample.toText_path.trans shown)
  refine ⟨listed, ?_⟩
  rw [answers _ _ _ _ Paths.Sample.holdsTree .afterDashes, ← same]
  decide +kernel

end CommandLine
end Certified
