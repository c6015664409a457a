import Certified.Hex
import Certified.Sha2.Hash

/-!
SHA-256 digests: byte strings of length 32, written in hexadecimal.
-/

namespace Certified

/-- A byte string of the length of a SHA-256 hash. -/
@[ext] structure Digest where
  bytes : Bytes
  length_eq : bytes.length = 32
deriving DecidableEq

namespace Digest

def ofBytes? (bytes : Bytes) : Option Digest :=
  if h : bytes.length = 32 then some ⟨bytes, h⟩ else none

theorem ofBytes?_bytes (d : Digest) : ofBytes? d.bytes = some d := by
  simp [ofBytes?, d.length_eq]

theorem bytes_of_ofBytes? {bytes : Bytes} {d : Digest} (h : ofBytes? bytes = some d) :
    d.bytes = bytes := by
  simp only [ofBytes?, Option.dite_none_right_eq_some, Option.some.injEq] at h
  obtain ⟨_, rfl⟩ := h
  rfl

/-- The SHA-256 digest of a byte string. -/
def sha256 (message : Bytes) : Digest :=
  ⟨Sha2.sha256 message, Sha2.length_sha256 message⟩

/-- Why a byte string or a text is not a digest. -/
inductive ReadError where
  | length (actual : Nat)
  | hex (cause : Hex.DecodeError)
deriving DecidableEq, Repr

def ReadError.message : ReadError → String
  | .length actual => "Invalid digest length: expected 32, got " ++ toString actual
  | .hex cause => "Hex encoding error: " ++ cause.message

def ofBytes (bytes : Bytes) : Except ReadError Digest :=
  match ofBytes? bytes with
  | some d => .ok d
  | none => .error (.length bytes.length)

def ofHex (text : String) : Except ReadError Digest := do
  ofBytes (← (Hex.decode text).mapError .hex)

def toHex (d : Digest) : String :=
  Hex.encode d.bytes

/-- The first eight bytes stand for the digest. -/
def abbreviated (d : Digest) : String :=
  "Digest(" ++ Hex.encode (d.bytes.take 8) ++ ")"

end Digest
end Certified
