/-!
Byte strings. Every encoding of this library reads and writes lists of bytes, so that a reader
can recurse on its input and a law can speak of `++`.
-/

namespace Certified

/-- A byte string. -/
abbrev Bytes := List UInt8

namespace Bytes

/-- The UTF-8 bytes of a text. -/
def ofText (text : String) : Bytes :=
  text.toList.flatMap String.utf8EncodeChar

/-- The number whose base-256 digits are `bytes`, most significant first. -/
def toNatBE (bytes : Bytes) : Nat :=
  bytes.foldl (fun n b => 256 * n + b.toNat) 0

/-- The last `width` base-256 digits of `n`, most significant first. -/
def ofNatBE : Nat → Nat → Bytes
  | 0, _ => []
  | width + 1, n => ofNatBE width (n / 256) ++ [UInt8.ofNat n]

/-- The number whose base-256 digits are `bytes`, least significant first. -/
def toNatLE : Bytes → Nat
  | [] => 0
  | b :: rest => b.toNat + 256 * toNatLE rest

/-- The last `width` base-256 digits of `n`, least significant first. -/
def ofNatLE : Nat → Nat → Bytes
  | 0, _ => []
  | width + 1, n => UInt8.ofNat n :: ofNatLE width (n / 256)

@[simp] theorem length_ofNatBE (width n : Nat) : (ofNatBE width n).length = width := by
  induction width generalizing n with
  | zero => rfl
  | succ width ih => simp [ofNatBE, ih]

@[simp] theorem toNatBE_nil : toNatBE [] = 0 := rfl

@[simp] theorem toNatBE_append_singleton (bytes : Bytes) (b : UInt8) :
    toNatBE (bytes ++ [b]) = 256 * toNatBE bytes + b.toNat := by
  simp [toNatBE]

end Bytes
end Certified
