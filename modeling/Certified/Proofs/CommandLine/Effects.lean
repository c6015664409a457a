import Mathlib
import Certified.Proofs.CommandLine.Help
import Certified.Proofs.CommandLine.Log
import Certified.Proofs.Config.Document
import Certified.Proofs.FileSystem

/-!
What a run leaves behind. A run that fails prints nothing and leaves the files as they are; of those that succeed
only the one that was asked for a new configuration writes a file, under a name where nothing was, and the file
reads as the default configuration.
-/

namespace Certified

/-- The default configuration can be written, and what is written reads as it. -/
theorem Config.exists_text_default :
    ∃ text, ({} : Config).toText = .ok text ∧ Config.ofBytes none (Bytes.ofText text) = .ok {} := by
  obtain ⟨text, made, _⟩ := document_toText (c := {}) (by decide)
  exact ⟨text, made, ofBytes_toText made none⟩

namespace CommandLine

/-- The files when a run is over: what it has written stands where its name leads. -/
def Outcome.filesAfter (outcome : Outcome) (fs : FileSystem) : FileSystem :=
  match outcome.written with
  | none => fs
  | some file =>
    match fs.writeLocation file.name with
    | .ok location => fs.write location (Bytes.ofText file.text)
    | .error _ => fs

theorem Outcome.filesAfter_of_unwritten {outcome : Outcome} (unwritten : outcome.written = none)
    (fs : FileSystem) : outcome.filesAfter fs = fs := by
  rw [filesAfter, unwritten]

/-! ### What is printed and written -/

section

variable {s : Surroundings} {arguments : List String} {invocation : Invocation} {success : Success}

theorem silent_of_failed (failed : (run s arguments).exitCode ≠ 0) :
    (run s arguments).stdout = "" ∧ (run s arguments).written = none := by
  cases asked : Invocation.ofArguments? arguments with
  | some invocation =>
    rw [Ne, exitCode_run_eq_zero_iff asked] at failed
    simp only [run, asked]
    cases answered : (invocation.run s).result with
    | ok success => exact absurd ⟨success, answered⟩ failed
    | error failure => exact ⟨rfl, rfl⟩
  | none =>
    cases help : HelpPage.ofArguments? arguments with
    | some page =>
      rw [run_of_help help] at failed
      exact absurd rfl failed
    | none => simp [run, asked, help]

/-- A run has written what its command has, if it had one that succeeded. -/
theorem written_run_of_ok (asked : Invocation.ofArguments? arguments = some invocation)
    (answered : (invocation.run s).result = .ok success) : (run s arguments).written = success.written := by
  simp only [run, asked, answered]

/-- Every command but one prints a text and does nothing else. -/
theorem exists_printed (answered : (invocation.run s).result = .ok success)
    (other : ∀ output, invocation.command ≠ .initConfig output) : ∃ text, success = printed text := by
  obtain ⟨config, verbose, command⟩ := invocation
  cases command with
  | verify options =>
    obtain ⟨_, _, report, _, _, rfl⟩ := result_runVerify_eq_ok_iff.mp answered
    exact ⟨_, rfl⟩
  | lookup witness path =>
    obtain ⟨blob, _, next⟩ := bind_eq_ok_iff.mp answered
    obtain ⟨labels, _, next⟩ := bind_eq_ok_iff.mp next
    obtain ⟨answer, _, made⟩ := bind_eq_ok_iff.mp next
    cases made
    exact ⟨_, rfl⟩
  | rootHash witness =>
    obtain ⟨blob, _, next⟩ := bind_eq_ok_iff.mp answered
    obtain ⟨root, _, made⟩ := bind_eq_ok_iff.mp next
    cases made
    exact ⟨_, rfl⟩
  | inspect certificate json =>
    obtain ⟨blob, _, next⟩ := bind_eq_ok_iff.mp answered
    obtain ⟨summary, _, made⟩ := bind_eq_ok_iff.mp next
    cases made
    exact ⟨_, rfl⟩
  | initConfig output => exact absurd rfl (other output)

theorem unwritten_of_other
    (other : ∀ config verbose output,
      Invocation.ofArguments? arguments ≠ some ⟨config, verbose, .initConfig output⟩) :
    (run s arguments).written = none := by
  by_cases done : (run s arguments).exitCode = 0
  · cases asked : Invocation.ofArguments? arguments with
    | none =>
      simp only [run, asked]
      split <;> rfl
    | some invocation =>
      obtain ⟨success, answered⟩ := (exitCode_run_eq_zero_iff asked).mp done
      obtain ⟨text, rfl⟩ := exists_printed answered fun output same =>
        other invocation.config invocation.verbose output (by rw [asked, ← same])
      exact written_run_of_ok asked answered
  · exact (silent_of_failed done).2

end

/-! ### New configurations -/

section

variable {fs : FileSystem} {stdin : Bytes} {rootKey : Option String} {now : Int64}
  {logFilter : Option (LogEvent → Bool)} {help : HelpPage → String} {output : String}
  {arguments : List String}

theorem exists_of_read {content : Bytes} (read : fs.read output = .ok content) :
    (Surroundings.ofFiles fs stdin rootKey now logFilter help).exists output = true := by
  simp [Surroundings.exists, Surroundings.ofFiles, read]

/-- A new configuration is written exactly where nothing is yet. -/
theorem runInitConfig_eq_ok_iff {success : Success} :
    runInitConfig (.ofFiles fs stdin rootKey now logFilter help) output = .ok success ↔
      ∃ text location, ({} : Config).toText = .ok text ∧ fs.Vacant output location ∧
        success = {
          stdout := "Default configuration saved to " ++ output ++ "\n"
          written := some { name := output, text } } := by
  constructor
  · intro answered
    unfold runInitConfig at answered
    split at answered
    · cases answered
    rename_i missing
    obtain ⟨text, made, next⟩ := bind_eq_ok_iff.mp answered
    split at next
    · cases next
    rename_i free
    cases next
    obtain ⟨location, writable⟩ : ∃ location, fs.writeLocation output = .ok location := by
      cases writable : fs.writeLocation output with
      | ok location => exact ⟨location, rfl⟩
      | error e => simp [Surroundings.ofFiles, writable] at free
    rcases FileSystem.vacant_or_read writable with vacant | ⟨content, _, read⟩
    · exact ⟨text, location, mapError_eq_ok_iff.mp made, vacant, rfl⟩
    · exact absurd (exists_of_read read) missing
  · rintro ⟨text, location, made, vacant, rfl⟩
    have missing : (Surroundings.ofFiles fs stdin rootKey now logFilter help).exists output = false := by
      simp [Surroundings.exists, Surroundings.ofFiles, vacant.read_eq]
    have free : (Surroundings.ofFiles fs stdin rootKey now logFilter help).refusal output = none := by
      simp [Surroundings.ofFiles, vacant.writeLocation_eq]
    simp only [runInitConfig, missing, made, mapError_ok, ok_bind, free]
    rfl

/-- The file of a new configuration is the only thing that is new, and it reads as the default configuration. -/
structure Saved (before after : FileSystem) (output : String) : Prop where
  missing : before.read output = .error .notFound
  added : ∃ location content, before.writeLocation output = .ok location ∧
    before.Adds after location content ∧ after.read output = .ok content
  loaded : ∀ stdin now, loadConfig (.ofFiles after stdin none now) (some output) = .ok {}

theorem saved_of_runInitConfig {outcome : Outcome} {success : Success}
    (answered : runInitConfig (.ofFiles fs stdin rootKey now logFilter help) output = .ok success)
    (written : outcome.written = success.written) : Saved fs (outcome.filesAfter fs) output := by
  obtain ⟨text, location, made, vacant, rfl⟩ := runInitConfig_eq_ok_iff.mp answered
  obtain ⟨written', made', reads⟩ := Config.exists_text_default
  obtain rfl : text = written' := Except.ok.inj (made.symm.trans made')
  have after : outcome.filesAfter fs = fs.write location (Bytes.ofText text) := by
    simp only [Outcome.filesAfter, written, vacant.writeLocation_eq]
  have adds := vacant.adds (Bytes.ofText text)
  have read := vacant.read_of_adds adds
  rw [after]
  refine ⟨vacant.read_eq, ⟨location, _, vacant.writeLocation_eq, adds, read⟩, ?_⟩
  intro stdin now
  simp only [loadConfig, Surroundings.ofFiles, read]
  exact reads

variable {config : Option String} {verbose : Nat}

theorem saved_of_run (asked : Invocation.ofArguments? arguments = some ⟨config, verbose, .initConfig output⟩)
    (done : (run (.ofFiles fs stdin rootKey now logFilter help) arguments).exitCode = 0) :
    Saved fs ((run (.ofFiles fs stdin rootKey now logFilter help) arguments).filesAfter fs) output := by
  obtain ⟨success, answered⟩ := (exitCode_run_eq_zero_iff asked).mp done
  exact saved_of_runInitConfig answered (written_run_of_ok asked answered)

/-- A new configuration is saved wherever its name can be written and nothing is there. -/
theorem exitCode_initConfig_iff
    (asked : Invocation.ofArguments? arguments = some ⟨config, verbose, .initConfig output⟩) :
    (run (.ofFiles fs stdin rootKey now logFilter help) arguments).exitCode = 0 ↔
      ∃ location, fs.writeLocation output = .ok location ∧ fs.standing location = .nothing := by
  rw [exitCode_run_eq_zero_iff asked]
  constructor
  · rintro ⟨success, answered⟩
    obtain ⟨_, location, _, vacant, _⟩ := runInitConfig_eq_ok_iff.mp answered
    exact ⟨location, vacant.writeLocation_eq, vacant.standing_eq⟩
  · rintro ⟨location, writable, nothing⟩
    obtain ⟨text, made, _⟩ := Config.exists_text_default
    rcases FileSystem.vacant_or_read writable with vacant | ⟨content, there, _⟩
    · exact ⟨_, runInitConfig_eq_ok_iff.mpr ⟨text, location, made, vacant, rfl⟩⟩
    · rw [nothing] at there
      cases there

end

/-- Whatever was there before a run is there after it. -/
theorem keeps_filesAfter (fs : FileSystem) (stdin : Bytes) (rootKey : Option String) (now : Int64)
    (logFilter : Option (LogEvent → Bool)) (help : HelpPage → String) (arguments : List String) :
    fs.Keeps ((run (.ofFiles fs stdin rootKey now logFilter help) arguments).filesAfter fs) := by
  by_cases done : (run (.ofFiles fs stdin rootKey now logFilter help) arguments).exitCode = 0
  · by_cases init : ∃ config verbose output,
      Invocation.ofArguments? arguments = some ⟨config, verbose, .initConfig output⟩
    · obtain ⟨config, verbose, output, asked⟩ := init
      obtain ⟨location, content, _, adds, _⟩ := (saved_of_run asked done).added
      exact adds.keeps
    · rw [Outcome.filesAfter_of_unwritten]
      · exact .refl fs
      · apply unwritten_of_other
        intro config verbose output asked
        exact init ⟨config, verbose, output, asked⟩
  · rw [Outcome.filesAfter_of_unwritten (silent_of_failed done).2]
    exact .refl fs

/-- A run that fails prints nothing and leaves the files as they are. One that succeeds leaves them as they are as
well, unless it was asked for a new configuration: then it has saved one under the given name, and this it does
wherever that name can be written and nothing is there. Where help is wanted no command runs, the page is all that is
printed and the run succeeds. No run changes what is there already, and what can be read under a name is read under
it afterwards. -/
theorem failed_run_leaves_no_trace (fs : FileSystem) (stdin : Bytes) (rootKey : Option String) (now : Int64)
    (logFilter : Option (LogEvent → Bool)) (help : HelpPage → String) (arguments : List String) :
    let outcome := run (.ofFiles fs stdin rootKey now logFilter help) arguments
    let after := outcome.filesAfter fs
    (outcome.exitCode ≠ 0 → outcome.stdout = "" ∧ outcome.written = none ∧ after = fs) ∧
    ((∀ config verbose output,
        Invocation.ofArguments? arguments ≠ some ⟨config, verbose, .initConfig output⟩) →
      outcome.written = none ∧ after = fs) ∧
    (∀ config verbose output,
      Invocation.ofArguments? arguments = some ⟨config, verbose, .initConfig output⟩ →
        (outcome.exitCode = 0 → Saved fs after output) ∧
        (outcome.exitCode = 0 ↔
          ∃ location, fs.writeLocation output = .ok location ∧ fs.standing location = .nothing)) ∧
    (∀ page, HelpPage.ofArguments? arguments = some page →
      Invocation.ofArguments? arguments = none ∧ outcome = .helping (help page)) ∧
    (∀ page, Wants arguments page → HelpPage.ofArguments? arguments = some page) ∧
    (∀ location, fs.standing location ≠ .nothing → after.standing location = fs.standing location) ∧
    ∀ name content, fs.read name = .ok content → after.read name = .ok content := by
  intro outcome after
  have keeps : fs.Keeps after := keeps_filesAfter fs stdin rootKey now logFilter help arguments
  refine ⟨?_, ?_, ?_, ?_, ?_, keeps.standing, fun name content => keeps.read⟩
  · intro failed
    obtain ⟨silent, unwritten⟩ := silent_of_failed failed
    exact ⟨silent, unwritten, Outcome.filesAfter_of_unwritten unwritten fs⟩
  · intro other
    have unwritten : outcome.written = none := unwritten_of_other other
    exact ⟨unwritten, Outcome.filesAfter_of_unwritten unwritten fs⟩
  · intro config verbose output asked
    exact ⟨saved_of_run asked, exitCode_initConfig_iff asked⟩
  · intro page asked
    exact ⟨ofArguments?_eq_none_of_help asked, run_of_help asked⟩
  · intro page wants
    exact wants.ofArguments?_eq

namespace Effects.Sample

/-- A working directory with a configuration, a witness and a directory in it. -/
def files : FileSystem where
  top := .directory [("work", .directory [("icv.toml", .file [1]),
    ("witness", .file (HashTree.leaf [2]).encode), ("more", .directory [])])]
  workingDirectory := ["work"]

def runIn (arguments : List String) : Outcome :=
  run (.ofFiles files [] none 0 none fun _ => "Usage: ...") arguments

theorem asked :
    Invocation.ofArguments? ["root-hash", "witness"] = some ⟨none, 0, .rootHash "witness"⟩ ∧
    Invocation.ofArguments? ["init-config", "more/../new.toml"] =
      some ⟨none, 0, .initConfig "more/../new.toml"⟩ := by
  decide +kernel

theorem ended : (runIn ["init-config"]).exitCode ≠ 0 ∧ (runIn ["root-hash", "witness"]).exitCode = 0 := by
  decide +kernel

theorem held : files.writeLocation "more/../new.toml" = .ok ["work", "new.toml"] ∧
    files.standing ["work", "new.toml"] = .nothing ∧ files.read "icv.toml" = .ok [1] := by
  decide +kernel

end Effects.Sample

/-- The configuration that is there is not overwritten, the root of a witness is printed and nothing written, and
under another name a new configuration is saved beside the old one, but not where help is asked for after it. -/
theorem failed_run_leaves_no_trace_sample :
    (Effects.Sample.runIn ["init-config"]).stdout = "" ∧
    (Effects.Sample.runIn ["init-config"]).filesAfter Effects.Sample.files = Effects.Sample.files ∧
    (Effects.Sample.runIn ["root-hash", "witness"]).exitCode = 0 ∧
    (Effects.Sample.runIn ["root-hash", "witness"]).filesAfter Effects.Sample.files =
      Effects.Sample.files ∧
    (Effects.Sample.runIn ["init-config", "more/../new.toml"]).exitCode = 0 ∧
    (∃ after, (Effects.Sample.runIn ["init-config", "more/../new.toml"]).filesAfter Effects.Sample.files =
        after ∧
      Saved Effects.Sample.files after "more/../new.toml" ∧ after.read "icv.toml" = .ok [1]) ∧
    Effects.Sample.runIn ["init-config", "more/../new.toml", "--help"] = .helping "Usage: ..." := by
  obtain ⟨askedRoot, askedNew⟩ := Effects.Sample.asked
  obtain ⟨failed, doneRoot⟩ := Effects.Sample.ended
  obtain ⟨writable, vacant, held⟩ := Effects.Sample.held
  have trace := failed_run_leaves_no_trace Effects.Sample.files [] none 0 none fun _ => "Usage: ..."
  obtain ⟨failing, _⟩ := trace ["init-config"]
  obtain ⟨silent, _, same⟩ := failing failed
  obtain ⟨_, other, _⟩ := trace ["root-hash", "witness"]
  obtain ⟨_, untouched⟩ := other (by simp [askedRoot])
  obtain ⟨_, _, new, _, _, _, read⟩ := trace ["init-config", "more/../new.toml"]
  obtain ⟨saved, possible⟩ := new none 0 _ askedNew
  obtain ⟨_, _, _, helped, wanted, _⟩ := trace ["init-config", "more/../new.toml", "--help"]
  obtain ⟨_, page⟩ := helped _ (wanted _ (.behind askedNew (by decide) List.mem_cons_self []))
  have done := possible.mpr ⟨_, writable, vacant⟩
  exact ⟨silent, same, doneRoot, untouched, done, ⟨_, rfl, saved done, read _ _ held⟩, page⟩

end CommandLine
end Certified
