import Certified.Bytes
import Certified.Radix

/-!
Base32 text of the uppercase alphabet without padding. A byte string is a number of `8 * length`
bits; its text is that number, filled up with zero bits to a multiple of five, in base 32.
-/

namespace Certified.Base32

def symbol (n : Nat) : Char :=
  Char.ofNat (if n < 26 then 65 + n else 24 + n)

/-- The value of a byte that is a symbol. -/
def symbolValue? (b : UInt8) : Option Nat :=
  if 65 ≤ b ∧ b ≤ 90 then some (b.toNat - 65)
  else if 50 ≤ b ∧ b ≤ 55 then some (b.toNat - 24)
  else none

/-- The number of symbols for a number of bytes. -/
def encodedLength (length : Nat) : Nat :=
  (8 * length + 4) / 5

def encode (bytes : Bytes) : List Char :=
  let width := encodedLength bytes.length
  let filled := Bytes.toNatBE bytes <<< (5 * width - 8 * bytes.length)
  (Radix.digits 32 width filled).map symbol

inductive DecodeError.Cause where
  | invalidLength
  | invalidSymbol
  | trailingBits
deriving DecidableEq, Repr

structure DecodeError where
  cause : DecodeError.Cause
  position : Nat
deriving DecidableEq, Repr

def DecodeError.message (e : DecodeError) : String :=
  let what := match e.cause with
    | .invalidLength => "invalid length"
    | .invalidSymbol => "invalid symbol"
    | .trailingBits => "non-zero trailing bits"
  what ++ " at " ++ toString e.position

/-- The values of symbols, the first of which is at `position`. -/
def symbolValues (position : Nat) : Bytes → Except DecodeError (List Nat)
  | [] => .ok []
  | b :: rest =>
    match symbolValue? b with
    | none => .error ⟨.invalidSymbol, position⟩
    | some n => (symbolValues (position + 1) rest).map (n :: ·)

/-- Refuses a length that no byte string has, then symbols outside the alphabet, then bits that are
set after the last whole byte. -/
def decode (text : Bytes) : Except DecodeError Bytes := do
  let spare := 5 * text.length % 8
  if 5 ≤ spare then .error ⟨.invalidLength, text.length - 1⟩
  let n := Radix.value 32 (← symbolValues 0 text)
  if n % (1 <<< spare) ≠ 0 then .error ⟨.trailingBits, text.length - 1⟩
  return Bytes.ofNatBE (5 * text.length / 8) (n >>> spare)

end Certified.Base32
