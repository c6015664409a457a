import Certified.Ed25519.Signature
import Certified.FileError
import Certified.Principal
import Certified.Text.Blank

/-!
The verifier's configuration.
-/

namespace Certified

/-- How certificate signatures are checked. -/
inductive SignatureScheme where
  | ed25519
  /-- Signatures are not checked at all. -/
  | none
deriving DecidableEq, Repr

namespace SignatureScheme

def name : SignatureScheme → String
  | .ed25519 => "ed25519"
  | .none => "none"

def ofName? (name : String) : Option SignatureScheme :=
  if name = "ed25519" then some .ed25519
  else if name = "none" then some .none
  else Option.none

def check : SignatureScheme → SignatureCheck
  | .ed25519 => Ed25519.check
  | .none => SignatureCheck.none

end SignatureScheme

structure Config where
  /-- The root key in hexadecimal. -/
  rootKey : Option String := none
  scheme : SignatureScheme := .ed25519
  /-- The canister to verify for where no other is given. -/
  canister : Option Principal := none
  /-- How far a certificate's time may be from the clock, in milliseconds. -/
  maxOffset : UInt64 := 50000
deriving DecidableEq

inductive ConfigError where
  | file (cause : FileError)
  | malformed
  /-- The offset is larger than a signed integer of 64 bits. -/
  | offsetTooLarge
  | invalidRootKey (cause : Hex.DecodeError)
deriving DecidableEq, Repr

def ConfigError.message : ConfigError → String
  | .file cause => "Could not read configuration: " ++ cause.message
  | .malformed => "Invalid configuration:"
  | .offsetTooLarge => "Could not serialize configuration: out-of-range value for u64 type"
  | .invalidRootKey cause => "Root key is not valid hex: " ++ cause.message

def ConfigError.causes : ConfigError → List String
  | .file cause => [cause.message]
  | .invalidRootKey cause => [cause.message]
  | _ => []

namespace Config

/-- The bytes of the root key, if there is one; blanks around it do not matter. -/
def rootKeyBytes (c : Config) : Except ConfigError (Option Bytes) :=
  match c.rootKey with
  | some key => ((Hex.decode (Text.Blank.trim key)).map some).mapError .invalidRootKey
  | none => .ok none

/-- The root key from the surroundings, where the configuration has none of its own. -/
def withRootKey (rootKey : Option String) (c : Config) : Config :=
  { c with rootKey := c.rootKey.or rootKey }

end Config
end Certified
