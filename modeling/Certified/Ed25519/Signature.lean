import Certified.Ed25519.Curve
import Certified.Sha2.Hash
import Certified.Signature

/-!
Ed25519 signatures. A public key is 32 bytes, alone or after the header of its DER form. A signature
is checked without the cofactor: the encoded point of the signature must be the encoding of
`S B - k A` byte by byte.
-/

namespace Certified.Ed25519

/-- The bytes before an Ed25519 key in its DER form. -/
def derHeader : Bytes :=
  [0x30, 0x2a, 0x30, 0x05, 0x06, 0x03, 0x2b, 0x65, 0x70, 0x03, 0x21, 0x00]

/-- The 32 bytes of a key. -/
def rawKey (key : Bytes) : Except SignatureError Bytes := do
  let raw ←
    if key.length ≠ derHeader.length + 32 then .ok key
    else if derHeader.isPrefixOf key then .ok (key.drop derHeader.length)
    else .error (.invalidKey "unknown DER header")
  if raw.length ≠ 32 then
    .error (.invalidKey ("expected 32 bytes, got " ++ toString raw.length))
  return raw

def hashToScalar (bytes : Bytes) : Nat :=
  Bytes.toNatLE (Sha2.sha512 bytes) % groupOrder

/-- The key is checked first, then the length of the signature, then the signature. -/
def check : SignatureCheck := fun message signature key => do
  let raw ← rawKey key
  let point ← match Point.decode? raw with
    | some point => .ok point
    | none => .error (.invalidKey "signature error: Cannot decompress Edwards point")
  if signature.length ≠ 64 then .error (.invalidFormat "signature error")
  let commitment := signature.take 32
  let s := Bytes.toNatLE (signature.drop 32)
  let k := hashToScalar (commitment ++ raw ++ message)
  let expected := (Point.base.multiple s).add (point.neg.multiple k)
  if s < groupOrder ∧ expected.encode = commitment then return ()
  else .error .invalidSignature

/-- The scalar of a secret key: the lower three bits are cleared and bit 254 is the highest. -/
def secretScalar (half : Bytes) : Nat :=
  let highest := 1 <<< 254
  highest + Bytes.toNatLE half % highest / 8 * 8

/-- The key pair of a 32-byte seed. -/
def signer (seed : Bytes) : Signer :=
  let expanded := Sha2.sha512 seed
  let scalar := secretScalar (expanded.take 32)
  let publicKey := (Point.base.multiple scalar).encode
  { publicKey
    sign := fun message =>
      let nonce := hashToScalar (expanded.drop 32 ++ message)
      let commitment := (Point.base.multiple nonce).encode
      let k := hashToScalar (commitment ++ publicKey ++ message)
      commitment ++ Bytes.ofNatLE 32 ((nonce + k * scalar) % groupOrder) }

end Certified.Ed25519
