import Certified.HashTree.Basic

/-!
Signatures over tree roots. The scheme is a parameter: any function of message, signature and key.
-/

namespace Certified

inductive SignatureError where
  | invalidKey (reason : String)
  | invalidFormat (reason : String)
  | invalidSignature
deriving DecidableEq, Repr

def SignatureError.message : SignatureError → String
  | .invalidKey reason => "Invalid public key: " ++ reason
  | .invalidFormat reason => "Invalid signature format: " ++ reason
  | .invalidSignature => "Signature verification failed"

/-- Checks a signature over a message under a public key. -/
abbrev SignatureCheck := (message signature key : Bytes) → Except SignatureError Unit

/-- Accepts every signature. -/
def SignatureCheck.none : SignatureCheck := fun _ _ _ => .ok ()

/-- What is signed to certify a tree with this root. -/
def signedMessage (root : Digest) : Bytes :=
  domainSeparator "ic-state-root" ++ root.bytes

/-- A key pair, as far as it is used: its public half and what it signs. -/
structure Signer where
  publicKey : Bytes
  sign : Bytes → Bytes

end Certified
