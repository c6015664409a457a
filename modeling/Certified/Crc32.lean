import Certified.Bytes

/-!
The CRC-32 checksum with the reflected polynomial `0xedb88320`.
-/

namespace Certified.Crc32

def shift (remainder : UInt32) : UInt32 :=
  if remainder &&& 1 = 1 then (remainder >>> 1) ^^^ 0xedb88320 else remainder >>> 1

def step (remainder : UInt32) (b : UInt8) : UInt32 :=
  Nat.repeat shift 8 (remainder ^^^ b.toUInt32)

def checksum (bytes : Bytes) : UInt32 :=
  bytes.foldl step 0xffffffff ^^^ 0xffffffff

/-- The checksum, most significant byte first. -/
def checksumBytes (bytes : Bytes) : Bytes :=
  Bytes.ofNatBE 4 (checksum bytes).toNat

end Certified.Crc32
