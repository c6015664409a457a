import Certified.Bytes.Lemmas
import Certified.Digest
import Certified.Proofs.Steps

/-!
What is written in hexadecimal is in lowercase and reads back, in whichever case its digits are; a text that
begins outside ASCII does not read. Digests in short are told apart by their first bytes.
-/

namespace Certified
namespace Hex

/-- The sixteen digits are ASCII. -/
theorem digitChar_ascii : ∀ n < 16, (Nat.digitChar n).toNat < 128 := by
  decide

theorem charOf_ofAscii {c : Char} (ascii : c.toNat < 128) : charOf (Bytes.ofAscii c) = c := by
  rw [charOf, Bytes.toNat_ofAscii ascii, Char.ofNat_toNat]

/-- Each byte is the number of a character. -/
theorem toNat_charOf (b : UInt8) : (charOf b).toNat = b.toNat := by
  have small : b.toNat < 256 := b.toNat_lt
  rw [charOf, Char.toNat_ofNat, if_pos (.inl (by omega))]

theorem ofAscii_charOf (b : UInt8) : Bytes.ofAscii (charOf b) = b := by
  rw [Bytes.ofAscii, toNat_charOf, UInt8.ofNat_toNat]

/-- The characters that are digits. -/
theorem bounds_of_digitOf? {c : Char} {n : Nat} (digit : Radix.digitOf? 16 c = some n) :
    48 ≤ c.toNat ∧ c.toNat ≤ 57 ∨ 65 ≤ c.toNat ∧ c.toNat ≤ 70 ∨ 97 ≤ c.toNat ∧ c.toNat ≤ 102 := by
  by_contra outside
  have decimal : ¬ (48 ≤ c.toNat ∧ c.toNat ≤ 57) := by omega
  have lower : ¬ (97 ≤ c.toNat ∧ c.toNat ≤ 102) := by omega
  have upper : ¬ (65 ≤ c.toNat ∧ c.toNat ≤ 70) := by omega
  simp [Radix.digitOf?, decimal, lower, upper] at digit

theorem digitOf?_of_toLower_ascii : ∀ m < 128, ∀ n < 16,
    (Char.ofNat m).toLower = Nat.digitChar n → Radix.digitOf? 16 (Char.ofNat m) = some n := by
  decide +kernel

/-- A capital letter is a digit as the small one is, and nothing else becomes a digit in small letters. -/
theorem digitOf?_of_toLower {c : Char} {n : Nat} (small : n < 16) (lower : c.toLower = Nat.digitChar n) :
    Radix.digitOf? 16 c = some n := by
  have ascii : c.toNat < 128 := by
    rw [Char.toLower] at lower
    split at lower
    · rename_i capital
      exact Nat.lt_of_le_of_lt (UInt32.le_iff_toNat_le.mp capital.2) (by decide)
    · rw [lower]
      exact digitChar_ascii n small
  have read := digitOf?_of_toLower_ascii c.toNat ascii n small
  rw [Char.ofNat_toNat] at read
  exact read lower

theorem decodeDigit_ofAscii {c : Char} {n : Nat} (digit : Radix.digitOf? 16 c = some n) (position : Nat) :
    decodeDigit position (Bytes.ofAscii c) = .ok n := by
  have ascii : c.toNat < 128 := by
    have := bounds_of_digitOf? digit
    omega
  rw [decodeDigit, charOf_ofAscii ascii, digit]

theorem digits_cons (b : UInt8) (bytes : Bytes) :
    digits (b :: bytes) =
      Nat.digitChar (b.toNat / 16) :: Nat.digitChar (b.toNat % 16) :: digits bytes := rfl

@[simp] theorem length_digits (bytes : Bytes) : (digits bytes).length = 2 * bytes.length := by
  induction bytes with
  | nil => rfl
  | cons b bytes ih =>
    rw [digits_cons, List.length_cons, List.length_cons, ih, List.length_cons]
    omega

theorem exists_digitChar_of_mem_digits {c : Char} {bytes : Bytes} (mem : c ∈ digits bytes) :
    ∃ n < 16, c = Nat.digitChar n := by
  obtain ⟨b, _, here⟩ := List.mem_flatMap.mp mem
  have small : b.toNat < 256 := b.toNat_lt
  rcases List.mem_cons.mp here with high | here
  · exact ⟨b.toNat / 16, by omega, high⟩
  · exact ⟨b.toNat % 16, by omega, List.mem_singleton.mp here⟩

/-- The characters are the digits of the bytes, each in either case. -/
def Spells (chars : List Char) (bytes : Bytes) : Prop :=
  chars.map Char.toLower = digits bytes

theorem toLower_digitChar : ∀ n < 16, (Nat.digitChar n).toLower = Nat.digitChar n := by
  decide

theorem spells_digits (bytes : Bytes) : Spells (digits bytes) bytes := by
  rw [Spells, List.map_congr_left (g := id) ?_, List.map_id]
  intro c mem
  obtain ⟨n, small, rfl⟩ := exists_digitChar_of_mem_digits mem
  exact toLower_digitChar n small

theorem Spells.length_eq {chars : List Char} {bytes : Bytes} (spelled : Spells chars bytes) :
    chars.length = 2 * bytes.length := by
  rw [← length_digits, ← spelled, List.length_map]

theorem Spells.digit_of_mem {chars : List Char} {bytes : Bytes} (spelled : Spells chars bytes) {c : Char}
    (mem : c ∈ chars) : ∃ n, Radix.digitOf? 16 c = some n := by
  have lower : c.toLower ∈ digits bytes := spelled ▸ List.mem_map_of_mem mem
  obtain ⟨n, small, same⟩ := exists_digitChar_of_mem_digits lower
  exact ⟨n, digitOf?_of_toLower small same⟩

/-- Two digits make up a byte, wherever they stand. -/
theorem decodePairs_of_spells {chars : List Char} {bytes : Bytes} (spelled : Spells chars bytes)
    (position : Nat) : decodePairs position (chars.map Bytes.ofAscii) = .ok bytes := by
  induction bytes generalizing chars position with
  | nil =>
    rw [List.map_eq_nil_iff.mp spelled]
    rfl
  | cons b bytes ih =>
    obtain ⟨hi, chars, rfl, high, spelled⟩ := List.map_eq_cons_iff.mp spelled
    obtain ⟨lo, chars, rfl, low, spelled⟩ := List.map_eq_cons_iff.mp spelled
    have bound : b.toNat < 256 := b.toNat_lt
    have whole : 16 * (b.toNat / 16) + b.toNat % 16 = b.toNat := by omega
    have high := digitOf?_of_toLower (by omega) high
    have low := digitOf?_of_toLower (by omega) low
    simp only [List.map_cons, decodePairs, decodeDigit_ofAscii high, decodeDigit_ofAscii low, ih spelled,
      ok_bind, pure_eq_ok, whole, UInt8.ofNat_toNat]

theorem decode_of_spells {chars : List Char} {bytes : Bytes} (spelled : Spells chars bytes) :
    decode (String.ofList chars) = .ok bytes := by
  have ascii : ∀ c ∈ chars, c.toNat < 128 := by
    intro c mem
    obtain ⟨n, digit⟩ := spelled.digit_of_mem mem
    have := bounds_of_digitOf? digit
    omega
  have even : ¬ (chars.map Bytes.ofAscii).length % 2 = 1 := by
    rw [List.length_map, spelled.length_eq]
    omega
  rw [decode, Bytes.ofText_ascii ascii, if_neg even]
  exact decodePairs_of_spells spelled 0

theorem decode_encode (bytes : Bytes) : decode (encode bytes) = .ok bytes :=
  decode_of_spells (spells_digits bytes)

/-! ### Written text -/

/-- The text stands for the bytes as it is written: in lowercase digits that read as them. -/
structure Writes (text : String) (bytes : Bytes) : Prop where
  lowercase : ∀ c ∈ text.toList, c ∈ "0123456789abcdef".toList
  decoded : decode text = .ok bytes

theorem digitChar_mem : ∀ n < 16, Nat.digitChar n ∈ "0123456789abcdef".toList := by
  decide

theorem lowercase_of_mem_encode {c : Char} {bytes : Bytes} (mem : c ∈ (encode bytes).toList) :
    c ∈ "0123456789abcdef".toList := by
  rw [encode, String.toList_ofList] at mem
  obtain ⟨n, small, rfl⟩ := exists_digitChar_of_mem_digits mem
  exact digitChar_mem n small

theorem writes_encode (bytes : Bytes) : Writes (encode bytes) bytes where
  lowercase _ := lowercase_of_mem_encode
  decoded := decode_encode bytes

theorem encode_inj {bytes other : Bytes} : encode bytes = encode other ↔ bytes = other := by
  constructor
  · intro same
    have read := decode_encode bytes
    rw [same, decode_encode] at read
    exact (Except.ok.inj read).symm
  · exact congrArg encode

/-! ### Text that does not read -/

/-- A text whose first byte is outside ASCII is not hexadecimal. -/
theorem decode_ne_ok_of_head {text : String} {b : UInt8} {rest bytes : Bytes}
    (starts : Bytes.ofText text = b :: rest) (high : 128 ≤ b.toNat) : decode text ≠ .ok bytes := by
  have notDigit : Radix.digitOf? 16 (charOf b) = none := by
    cases digit : Radix.digitOf? 16 (charOf b) with
    | none => rfl
    | some n =>
      have := bounds_of_digitOf? digit
      rw [toNat_charOf] at this
      omega
  intro h
  rw [decode, starts] at h
  split at h
  · cases h
  · rename_i even
    cases rest with
    | nil => exact even rfl
    | cons lo rest =>
      simp only [decodePairs, decodeDigit, notDigit, error_bind] at h
      cases h

end Hex

/-- Digests look alike in short where their first eight bytes are the same. -/
theorem Digest.abbreviated_eq_iff (d other : Digest) :
    d.abbreviated = other.abbreviated ↔ d.bytes.take 8 = other.bytes.take 8 := by
  rw [abbreviated, abbreviated, String.append_left_inj, String.append_right_inj, Hex.encode_inj]

end Certified
