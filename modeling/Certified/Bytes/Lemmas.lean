import Mathlib
import Certified.Bytes

/-!
Numbers written as bytes read back, up to what the width cuts off, and bytes read as a number are written
back. A text of ASCII characters has one byte for each of them.
-/

namespace Certified.Bytes

/-- Reading back what was written loses only the digits above the width. -/
theorem toNatBE_ofNatBE (width n : Nat) : toNatBE (ofNatBE width n) = n % 256 ^ width := by
  induction width generalizing n with
  | zero => simp [ofNatBE, Nat.mod_one]
  | succ width ih =>
    simp only [ofNatBE, toNatBE_append_singleton, ih, UInt8.toNat_ofNat', Nat.reducePow]
    rw [Nat.pow_succ, Nat.mul_comm (256 ^ width) 256, Nat.mod_mul]
    omega

/-- A byte string is written back for the number that it spells. -/
theorem ofNatBE_toNatBE (bytes : Bytes) : ofNatBE bytes.length (toNatBE bytes) = bytes := by
  induction bytes using List.reverseRecOn with
  | nil => rfl
  | append_singleton bytes b ih =>
    have small : b.toNat < 256 := b.toNat_lt
    have whole : (256 * toNatBE bytes + b.toNat) / 256 = toNatBE bytes := by omega
    have digit : UInt8.ofNat (256 * toNatBE bytes + b.toNat) = b := by
      apply UInt8.toNat_inj.mp
      simp
    rw [List.length_append, List.length_singleton, ofNatBE, toNatBE_append_singleton, whole, ih, digit]

theorem toNatBE_lt (bytes : Bytes) : toNatBE bytes < 256 ^ bytes.length := by
  induction bytes using List.reverseRecOn with
  | nil => simp
  | append_singleton bytes b ih =>
    have small : b.toNat < 256 := b.toNat_lt
    rw [toNatBE_append_singleton, List.length_append, List.length_singleton, Nat.pow_succ]
    omega

/-- The byte of an ASCII character. -/
def ofAscii (c : Char) : UInt8 :=
  UInt8.ofNat c.toNat

theorem toNat_ofAscii {c : Char} (ascii : c.toNat < 128) : (ofAscii c).toNat = c.toNat := by
  rw [ofAscii, UInt8.toNat_ofNat']
  omega

theorem utf8EncodeChar_ascii {c : Char} (ascii : c.toNat < 128) :
    String.utf8EncodeChar c = [ofAscii c] := by
  have le : c.val.toNat ≤ 127 := Nat.le_of_lt_succ ascii
  simp only [String.utf8EncodeChar, le, if_true]
  rfl

theorem ofText_ascii {chars : List Char} (ascii : ∀ c ∈ chars, c.toNat < 128) :
    ofText (String.ofList chars) = chars.map ofAscii := by
  rw [ofText, String.toList_ofList]
  induction chars with
  | nil => rfl
  | cons c chars ih =>
    obtain ⟨first, rest⟩ := List.forall_mem_cons.mp ascii
    rw [List.flatMap_cons, utf8EncodeChar_ascii first, ih rest, List.map_cons, List.singleton_append]

end Certified.Bytes
