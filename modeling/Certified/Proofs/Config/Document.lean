import Mathlib
import Certified.Config.Encoding
import Certified.Proofs.Principal
import Certified.Proofs.Toml.Documents
import Certified.Proofs.Toml.Tables
import Certified.Text.Lemmas

/-!
The document of a configuration reads as the configuration.
-/

namespace Certified.Config

open Toml (Document LineOf ReadsAs Statement Value)

/-! ### Writing -/

/-- The tables of a configuration. -/
def tables (c : Config) : List (String × List (String × Value)) :=
  [("trust",
      (c.rootKey.map fun key => ("root_key", Value.string key)).toList ++
        [("signature_scheme", .string c.scheme.name)]),
    ("verification",
      (c.canister.map fun p => ("canister_id", Value.string p.toText)).toList ++
        [("max_certificate_time_offset_ms", .integer c.maxOffset.toNat)])]

/-- The names of the tables and of their keys need no quotation marks. -/
theorem bare_names : ∀ name ∈ ["trust", "root_key", "signature_scheme", "verification", "canister_id",
    "max_certificate_time_offset_ms"], Toml.Bare name := by
  simp [Toml.Bare, Toml.isBareKeyChar]

theorem document_header {name : String} (bare : Toml.Bare name) {statements : List Statement} {chars : List Char}
    (later : Document statements chars) :
    Document (.table [name] :: statements) (("[" ++ name ++ "]\n").toList ++ chars) := by
  have line : ("[" ++ name ++ "]\n").toList = '[' :: (name.toList ++ [']', '\n']) := by simp
  rw [line]
  exact .line (.header bare) later

theorem document_assignment {key text : String} {value : Value} (bare : Toml.Bare key)
    (reads : ReadsAs text.toList value) {statements : List Statement} {chars : List Char}
    (later : Document statements chars) :
    Document (.assign [key] value :: statements) ((Toml.assignmentLine key text).toList ++ chars) :=
  .line (.assignment bare reads) later

/-- The line of a key that is left out where it has no value. -/
theorem document_optional {α : Type} {key : String} (bare : Toml.Bare key) {text : α → String} {value : α → Value}
    (reads : ∀ a, ReadsAs (text a).toList (value a)) (given : Option α) {statements : List Statement}
    {chars : List Char} (later : Document statements chars) :
    Document ((given.map fun a => (key, value a)).toList.map (fun (key, value) => .assign [key] value) ++ statements)
      (((given.map fun a => Toml.assignmentLine key (text a)).getD "").toList ++ chars) := by
  cases given with
  | none => exact later
  | some a => exact document_assignment bare (reads a) later

theorem readsAs_toString {n : Nat} (fits : n < 2 ^ 63) : ReadsAs (toString n).toList (.integer n) := by
  rw [Nat.toString_eq_ofList_toDigits, String.toList_ofList]
  exact Toml.readsAs_toDigits fits

theorem document_toText {c : Config} (fits : c.maxOffset.toNat < 2 ^ 63) :
    ∃ text, c.toText = .ok text ∧ Document (Toml.statementsOf c.tables) text.toList := by
  have offset := document_assignment (bare_names "max_certificate_time_offset_ms" (by simp))
    (readsAs_toString fits) .nil
  have canister := document_optional (bare_names "canister_id" (by simp))
    (fun p : Principal => Toml.readsAs_writeString p.toText) c.canister offset
  have verification := document_header (bare_names "verification" (by simp)) canister
  have scheme := document_assignment (bare_names "signature_scheme" (by simp))
    (Toml.readsAs_writeString c.scheme.name) (.blank verification)
  have rootKey := document_optional (bare_names "root_key" (by simp)) Toml.readsAs_writeString c.rootKey scheme
  have trust := document_header (bare_names "trust" (by simp)) rootKey
  have small : c.maxOffset < 0x8000000000000000 := by
    rw [UInt64.lt_iff_toNat_lt]
    exact fits
  rw [toText, if_pos small]
  refine ⟨_, rfl, ?_⟩
  simpa [Toml.statementsOf, tables] using trust

/-- Only an offset that is no signed number of 64 bits cannot be written. -/
theorem toText_eq_error_iff {c : Config} {e : ConfigError} :
    c.toText = .error e ↔ e = .offsetTooLarge ∧ 2 ^ 63 ≤ c.maxOffset.toNat := by
  constructor
  · intro refused
    by_cases fits : c.maxOffset.toNat < 2 ^ 63
    · obtain ⟨text, made, _⟩ := document_toText fits
      rw [made] at refused
      cases refused
    · unfold toText at refused
      split at refused
      · cases refused
      · cases refused
        exact ⟨rfl, Nat.le_of_not_lt fits⟩
  · rintro ⟨rfl, large⟩
    have large : ¬ c.maxOffset < 0x8000000000000000 := by
      rw [UInt64.lt_iff_toNat_lt]
      exact Nat.not_lt.mpr large
    rw [toText, if_neg large]

theorem small_of_toText {c : Config} {text : String} (made : c.toText = .ok text) : c.maxOffset.toNat < 2 ^ 63 := by
  by_contra large
  rw [toText_eq_error_iff.mpr ⟨rfl, Nat.le_of_not_lt large⟩] at made
  cases made

/-! ### Reading -/

theorem ofName?_name (scheme : SignatureScheme) : SignatureScheme.ofName? scheme.name = some scheme := by
  cases scheme <;> rfl

theorem maxOffsetOf_integer (n : UInt64) : maxOffsetOf (.integer n.toNat) = some n := by
  simp [maxOffsetOf]

/-- The tables of a configuration are read as the configuration. -/
theorem ofTable?_tables (c : Config) :
    ofTable? (c.tables.map fun (name, pairs) => (name, .table pairs)) = some c := by
  obtain ⟨rootKey, scheme, canister, maxOffset⟩ := c
  cases rootKey <;> cases canister <;>
    simp [tables, ofTable?, valuesOf?, valueOr, List.lookup, rootKeyOf, schemeOf, canisterOf, ofName?_name,
      maxOffsetOf_integer, Principal.ofText_toText, Except.toOption]

theorem tables_distinct (c : Config) :
    (c.tables.map (·.1)).Nodup ∧ ∀ table ∈ c.tables, (table.2.map (·.1)).Nodup := by
  obtain ⟨rootKey, scheme, canister, maxOffset⟩ := c
  cases rootKey <;> cases canister <;> simp [tables]

/-- The document of a configuration reads as the configuration. -/
theorem ofText_toText {c : Config} {text : String} (made : c.toText = .ok text) : ofText text = .ok c := by
  obtain ⟨written, made', document⟩ := document_toText (small_of_toText made)
  obtain rfl : text = written := Except.ok.inj (made.symm.trans made')
  obtain ⟨names, keys⟩ := tables_distinct c
  rw [ofText, document.parse?_eq, Toml.ofStatements?_statementsOf names keys, Option.bind_some, ofTable?_tables]

/-- A file with the document of a configuration is read as the configuration; what it does not say about the root
key, the surroundings do. -/
theorem ofBytes_toText {c : Config} {text : String} (made : c.toText = .ok text) (rootKey : Option String) :
    ofBytes rootKey (Bytes.ofText text) = .ok { c with rootKey := c.rootKey.or rootKey } := by
  rw [ofBytes, Utf8.decode?_eq_some_iff.mpr rfl]
  dsimp only
  rw [ofText_toText made]
  rfl

end Certified.Config
