import Certified.Config.Basic
import Certified.Text.Utf8
import Certified.Toml.Parser
import Certified.Toml.Printer

/-!
The configuration as a TOML document: a table `trust` with the keys `root_key` and
`signature_scheme`, and a table `verification` with the keys `canister_id` and
`max_certificate_time_offset_ms`. Every key may be missing, and other keys do not matter.
-/

namespace Certified.Config

open Toml (Value)

/-- The values of some keys of a section. A section is a table, or an array that holds the values
in the order of the keys. -/
def valuesOf? (keys : List String) : Option Value → Option (List (Option Value))
  | none => some (keys.map fun _ => none)
  | some (.table entries) => some (keys.map fun key => entries.lookup key)
  | some (.array items) => some (keys.mapIdx fun i _ => items[i]?)
  | some .dateTime => some (keys.map fun _ => none)
  | some _ => none

def rootKeyOf : Value → Option String
  | .string text => some text
  | _ => none

/-- A scheme is named by a string, or by the only key of a table that holds an empty table or an
empty array. -/
def schemeOf : Value → Option SignatureScheme
  | .string name => SignatureScheme.ofName? name
  | .table [(name, .table [])] => SignatureScheme.ofName? name
  | .table [(name, .array [])] => SignatureScheme.ofName? name
  | _ => none

def canisterOf : Value → Option Principal
  | .string text => (Principal.ofText text).toOption
  | _ => none

def maxOffsetOf : Value → Option UInt64
  | .integer n => if 0 ≤ n then some (UInt64.ofNat n.toNat) else none
  | _ => none

/-- Reads a value that is there, and takes another where none is. -/
def valueOr {α : Type} (absent : α) (read : Value → Option α) : Option Value → Option α
  | some value => read value
  | none => some absent

def ofTable? (entries : List (String × Value)) : Option Config := do
  let absent : Config := {}
  let trust ← valuesOf? ["root_key", "signature_scheme"] (entries.lookup "trust")
  let verification ←
    valuesOf? ["canister_id", "max_certificate_time_offset_ms"] (entries.lookup "verification")
  match trust, verification with
  | [rootKey, scheme], [canister, maxOffset] =>
    some {
      rootKey := ← valueOr absent.rootKey (fun v => (rootKeyOf v).map some) rootKey
      scheme := ← valueOr absent.scheme schemeOf scheme
      canister := ← valueOr absent.canister (fun v => (canisterOf v).map some) canister
      maxOffset := ← valueOr absent.maxOffset maxOffsetOf maxOffset }
  | _, _ => none

/-- The configuration of a document. -/
def ofText (text : String) : Except ConfigError Config :=
  match (Toml.parse? text).bind ofTable? with
  | some config => .ok config
  | none => .error .malformed

/-- The configuration of a file's content; the root key of the surroundings fills in for a missing
one. -/
def ofBytes (rootKey : Option String) (content : Bytes) : Except ConfigError Config :=
  match Utf8.decode? content with
  | some text => (ofText text).map (withRootKey rootKey)
  | none => .error (.file .invalidText)

/-- The document of a configuration. What has no value is left out. -/
def toText (c : Config) : Except ConfigError String :=
  if c.maxOffset < 0x8000000000000000 then
    .ok <|
      "[trust]\n" ++
      (c.rootKey.map fun key => Toml.assignmentLine "root_key" (Toml.writeString key)).getD "" ++
      Toml.assignmentLine "signature_scheme" (Toml.writeString c.scheme.name) ++
      "\n[verification]\n" ++
      (c.canister.map fun p => Toml.assignmentLine "canister_id" (Toml.writeString p.toText)).getD "" ++
      Toml.assignmentLine "max_certificate_time_offset_ms" (toString c.maxOffset.toNat)
  else .error .offsetTooLarge

end Certified.Config
