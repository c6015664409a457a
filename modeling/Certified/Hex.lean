import Certified.Bytes
import Certified.Radix
import Certified.Text.Quoted

/-!
Hexadecimal text. Writing uses lowercase digits, reading takes both cases and works on the bytes
of the text, so that a position names a byte.
-/

namespace Certified.Hex

def digits (bytes : Bytes) : List Char :=
  bytes.flatMap fun b => [Nat.digitChar (b.toNat / 16), Nat.digitChar (b.toNat % 16)]

/-- Two lowercase digits for each byte. -/
def encode (bytes : Bytes) : String :=
  String.ofList (digits bytes)

inductive DecodeError where
  | oddLength
  | invalidCharacter (byte : UInt8) (position : Nat)
deriving DecidableEq, Repr

/-- The character with the number of a byte. -/
def charOf (b : UInt8) : Char :=
  Char.ofNat b.toNat

def DecodeError.message : DecodeError → String
  | .oddLength => "Odd number of digits"
  | .invalidCharacter byte position =>
    "Invalid character " ++ Text.Quoted.char (charOf byte) ++
      " at position " ++ toString position

def decodeDigit (position : Nat) (b : UInt8) : Except DecodeError Nat :=
  match Radix.digitOf? 16 (charOf b) with
  | some n => .ok n
  | none => .error (.invalidCharacter b position)

/-- Reads pairs of digits, the first of which is at `position`. -/
def decodePairs (position : Nat) : Bytes → Except DecodeError Bytes
  | hi :: lo :: rest => do
    let h ← decodeDigit position hi
    let l ← decodeDigit (position + 1) lo
    let bytes ← decodePairs (position + 2) rest
    return UInt8.ofNat (16 * h + l) :: bytes
  | _ => .ok []

/-- An odd number of digits is refused before any digit is looked at. -/
def decode (text : String) : Except DecodeError Bytes :=
  let bytes := Bytes.ofText text
  if bytes.length % 2 = 1 then .error .oddLength else decodePairs 0 bytes

end Certified.Hex
