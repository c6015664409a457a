import Mathlib
import Certified.Config.Saving
import Certified.Proofs.CommandLine.Effects

/-!
Saved configurations load. Saving writes the document of a configuration or leaves all files as they are, and what
was written is what is read.
-/

namespace Certified.Config

open CommandLine (Surroundings loadConfig)

/-! ### What saving does -/

/-- What comes of saving a configuration: how it ends, and the files after it. -/
inductive Saves (c : Config) (name : String) (fs : FileSystem) : Except ConfigError Unit × FileSystem → Prop where
  | written {text : String} {location : Location} (made : c.toText = .ok text)
    (found : fs.writeLocation name = .ok location) :
    Saves c name fs (.ok (), fs.write location (Bytes.ofText text))
  | unwritable {text : String} {e : FileError} (made : c.toText = .ok text)
    (refused : fs.writeLocation name = .error e) : Saves c name fs (.error (.file e), fs)
  | offsetTooLarge (large : 2 ^ 63 ≤ c.maxOffset.toNat) : Saves c name fs (.error .offsetTooLarge, fs)

theorem saves_save (c : Config) (name : String) (fs : FileSystem) : Saves c name fs (c.save name fs) := by
  unfold save
  cases made : c.toText with
  | error e =>
    obtain ⟨rfl, large⟩ := toText_eq_error_iff.mp made
    exact .offsetTooLarge large
  | ok text =>
    cases found : fs.writeLocation name with
    | error e => exact .unwritable made found
    | ok location => exact .written made found

/-! ### What is loaded afterwards -/

/-- What was saved under a name is loaded from it, whatever else the surroundings hold. -/
theorem loadConfig_write {c : Config} {text name : String} {fs : FileSystem} {location : Location}
    (made : c.toText = .ok text) (found : fs.writeLocation name = .ok location) (stdin : Bytes)
    (rootKey : Option String) (now : Int64) :
    loadConfig (.ofFiles (fs.write location (Bytes.ofText text)) stdin rootKey now) (some name) =
      .ok { c with rootKey := c.rootKey.or rootKey } := by
  simp only [loadConfig, Surroundings.ofFiles, FileSystem.read_write found]
  exact ofBytes_toText made rootKey

section

variable {c : Config} {name : String} {fs : FileSystem} {saved : Except ConfigError Unit × FileSystem}

theorem Saves.loads (saves : Saves c name fs saved) (done : saved.1 = .ok ()) (stdin : Bytes)
    (rootKey : Option String) (now : Int64) :
    loadConfig (.ofFiles saved.2 stdin rootKey now) (some name) =
      .ok { c with rootKey := c.rootKey.or rootKey } := by
  cases saves with
  | written made found => exact loadConfig_write made found stdin rootKey now
  | unwritable | offsetTooLarge => cases done

theorem Saves.ok_iff (saves : Saves c name fs saved) :
    saved.1 = .ok () ↔ c.maxOffset.toNat < 2 ^ 63 ∧ ∃ location, fs.writeLocation name = .ok location := by
  cases saves with
  | written made found => exact iff_of_true rfl ⟨small_of_toText made, _, found⟩
  | unwritable made refused =>
    apply iff_of_false (by simp)
    rintro ⟨_, location, found⟩
    rw [refused] at found
    cases found
  | offsetTooLarge large =>
    apply iff_of_false (by simp)
    intro possible
    exact absurd possible.1 (Nat.not_lt.mpr large)

theorem Saves.offsetTooLarge_iff (saves : Saves c name fs saved) :
    saved.1 = .error .offsetTooLarge ↔ 2 ^ 63 ≤ c.maxOffset.toNat := by
  cases saves with
  | written made | unwritable made => exact iff_of_false (by simp) (Nat.not_le.mpr (small_of_toText made))
  | offsetTooLarge large => exact iff_of_true rfl large

/-- An error comes before anything is written. -/
theorem Saves.unchanged (saves : Saves c name fs saved) (e : ConfigError) (failed : saved.1 = .error e) :
    saved.2 = fs := by
  cases saves with
  | written => cases failed
  | unwritable | offsetTooLarge => rfl

end

/-- Every configuration whose offset is a signed number of 64 bits is saved wherever a file can be written, and it
loads from there unchanged; a missing root key alone is filled in from the surroundings. An offset that is larger is
the error of saving it, and an error leaves all files as they were. -/
theorem saved_loads_unchanged (c : Config) (name : String) (fs : FileSystem) :
    let ended := (c.save name fs).1
    let after := (c.save name fs).2
    (ended = .ok () →
      ∀ rootKey stdin now,
        loadConfig (.ofFiles after stdin rootKey now) (some name) =
          .ok { c with rootKey := c.rootKey.or rootKey }) ∧
    (ended = .ok () ↔
      c.maxOffset.toNat < 2 ^ 63 ∧ ∃ location, fs.writeLocation name = .ok location) ∧
    (ended = .error .offsetTooLarge ↔ 2 ^ 63 ≤ c.maxOffset.toNat) ∧
    ∀ e, ended = .error e → after = fs := by
  have saves := saves_save c name fs
  refine ⟨?_, saves.ok_iff, saves.offsetTooLarge_iff, saves.unchanged⟩
  intro done rootKey stdin now
  exact saves.loads done stdin rootKey now

namespace Saving.Sample

/-- A root key that no single form of a string holds as it is. -/
def config : Config where
  rootKey := some "a\"\"\"b'''\\c\n\x01 = d"
  scheme := .none
  canister := some .management
  maxOffset := 0x7fffffffffffffff

theorem found : CommandLine.Effects.Sample.files.writeLocation "icv.toml" = .ok ["work", "icv.toml"] := by
  decide +kernel

end Saving.Sample

/-- Saved over another file, a configuration loads with its own root key, and without one with that of the
surroundings; with an offset that is too large it leaves the file as it was. -/
theorem saved_loads_unchanged_sample :
    (∃ after, Saving.Sample.config.save "icv.toml" CommandLine.Effects.Sample.files = (.ok (), after) ∧
      loadConfig (.ofFiles after [] (some "00ff") 0) (some "icv.toml") = .ok Saving.Sample.config) ∧
    (∃ after, { Saving.Sample.config with rootKey := none }.save "icv.toml"
          CommandLine.Effects.Sample.files = (.ok (), after) ∧
      loadConfig (.ofFiles after [] (some "00ff") 0) (some "icv.toml") =
        .ok { Saving.Sample.config with rootKey := some "00ff" }) ∧
    { Saving.Sample.config with maxOffset := 0x8000000000000000 }.save "icv.toml"
      CommandLine.Effects.Sample.files = (.error .offsetTooLarge, CommandLine.Effects.Sample.files) := by
  have found := Saving.Sample.found
  obtain ⟨loads, possible, _⟩ := saved_loads_unchanged Saving.Sample.config "icv.toml"
    CommandLine.Effects.Sample.files
  obtain ⟨loads', possible', _⟩ := saved_loads_unchanged { Saving.Sample.config with rootKey := none } "icv.toml"
    CommandLine.Effects.Sample.files
  obtain ⟨_, _, tooLarge, unchanged⟩ := saved_loads_unchanged
    { Saving.Sample.config with maxOffset := 0x8000000000000000 } "icv.toml" CommandLine.Effects.Sample.files
  have done := possible.mpr ⟨by decide, _, found⟩
  have done' := possible'.mpr ⟨by decide, _, found⟩
  have failed := tooLarge.mpr (by decide)
  refine ⟨⟨_, Prod.ext done rfl, ?_⟩, ⟨_, Prod.ext done' rfl, ?_⟩, Prod.ext failed (unchanged _ failed)⟩
  · exact loads done (some "00ff") [] 0
  · exact loads' done' (some "00ff") [] 0

end Certified.Config
