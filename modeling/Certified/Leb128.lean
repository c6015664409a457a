import Certified.Bytes

/-!
Unsigned LEB128 numbers of 64 bits: base-128 digits, least significant first, each but the last
with its high bit set.
-/

namespace Certified.Leb128

inductive ReadError where
  | truncated
  | tooLarge
deriving DecidableEq, Repr

def ReadError.message : ReadError → String
  | .truncated => "failed to fill whole buffer"
  | .tooLarge => "The number being read is larger than can be represented"

/-- Some byte has its high bit clear. -/
def hasLast (bytes : Bytes) : Bool :=
  bytes.any (· < 128)

/-- Reads on at the digit of weight `128 ^ index`. The tenth digit of a 64-bit number is 0 or 1;
a larger one is reported once the end of the number has been seen. -/
def readFrom (index : Nat) : Bytes → Except ReadError Nat
  | [] => .error .truncated
  | b :: rest =>
    if index = 9 ∧ 1 < b then
      .error (if hasLast (b :: rest) then .tooLarge else .truncated)
    else if b < 128 then .ok b.toNat
    else (readFrom (index + 1) rest).map fun n => b.toNat % 128 + 128 * n

/-- The number at the start of a byte string; what follows it is not looked at. -/
def read (bytes : Bytes) : Except ReadError UInt64 :=
  (readFrom 0 bytes).map UInt64.ofNat

/-- The digits of a number, as few as possible. -/
def digits (n : Nat) : Bytes :=
  if n < 128 then [UInt8.ofNat n] else UInt8.ofNat (n % 128 + 128) :: digits (n / 128)

def write (n : UInt64) : Bytes :=
  digits n.toNat

end Certified.Leb128
