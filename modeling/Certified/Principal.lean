import Certified.Base32
import Certified.Crc32

/-!
Principals: the ids of canisters and users. A principal is a short byte string; its text is the
base32 form of its checksum and its bytes, in lowercase groups of five.
-/

namespace Certified

/-- A byte string of at most 29 bytes. -/
@[ext] structure Principal where
  bytes : Bytes
  length_le : bytes.length ≤ 29
deriving DecidableEq

inductive PrincipalError where
  | tooLong (length : Nat)
  | base32 (cause : Base32.DecodeError)
  | missingChecksum
  | checksumMismatch
  /-- The text spells a principal, but another text is the one written for it. -/
  | notCanonical (text : String)
deriving DecidableEq, Repr

def PrincipalError.reason : PrincipalError → String
  | .tooLong length => "length " ++ toString length ++ " exceeds maximum of 29 bytes"
  | .base32 cause => "bad base32: " ++ cause.message
  | .missingChecksum => "missing checksum"
  | .checksumMismatch => "checksum mismatch"
  | .notCanonical text => "'" ++ text ++ "' is not in canonical form"

def PrincipalError.message (e : PrincipalError) : String :=
  "Invalid principal: " ++ e.reason

/-- Groups of five characters with dashes between them; `room` characters still fit the first. -/
def dashed : (room : Nat) → List Char → List Char
  | _, [] => []
  | 0, c :: rest => '-' :: c :: dashed 4 rest
  | room + 1, c :: rest => c :: dashed room rest

namespace Principal

/-- The canister that every subnet has for its own management. -/
def management : Principal :=
  ⟨[], by decide⟩

def ofBytes (bytes : Bytes) : Except PrincipalError Principal :=
  if h : bytes.length ≤ 29 then .ok ⟨bytes, h⟩ else .error (.tooLong bytes.length)

def toText (p : Principal) : String :=
  let encoded := Base32.encode (Crc32.checksumBytes p.bytes ++ p.bytes)
  String.ofList (dashed 5 (encoded.map Char.toLower))

/-- The principal of a text. Dashes and case do not matter for what the text spells, but only the
text that `toText` writes is accepted. -/
def ofText (text : String) : Except PrincipalError Principal := do
  let compact := (text.toList.filter (· ≠ '-')).map Char.toUpper
  let bytes ← (Base32.decode (Bytes.ofText (String.ofList compact))).mapError .base32
  if bytes.length < 4 then .error .missingChecksum
  let p ← ofBytes (bytes.drop 4)
  if bytes.take 4 ≠ Crc32.checksumBytes p.bytes then .error .checksumMismatch
  if p.toText ≠ text then .error (.notCanonical text)
  return p

/-- Principals are ordered as their byte strings. -/
def le (p q : Principal) : Bool :=
  p.bytes ≤ q.bytes

def shown (p : Principal) : String :=
  "Principal(" ++ p.toText ++ ")"

end Principal
end Certified
