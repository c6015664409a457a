import Mathlib
import Certified.Base32
import Certified.Bytes.Lemmas
import Certified.Proofs.Steps
import Certified.Radix.Lemmas
import Certified.Text.Lemmas

/-!
Symbols stand for bytes. What is written for bytes is read as these bytes, and nothing else is read as them:
the bits that no byte fills have to be zero.
-/

namespace Certified

namespace Base32

theorem symbol_ascii : ∀ n < 32, (symbol n).toNat < 128 := by
  decide

theorem symbolValue?_symbol : ∀ n < 32, symbolValue? (Bytes.ofAscii (symbol n)) = some n := by
  decide

theorem symbolValues_symbols {ds : List Nat} (small : ∀ d ∈ ds, d < 32) (position : Nat) :
    symbolValues position ((ds.map symbol).map Bytes.ofAscii) = .ok ds := by
  induction ds generalizing position with
  | nil => rfl
  | cons d ds ih =>
    obtain ⟨first, rest⟩ := List.forall_mem_cons.mp small
    simp only [List.map_cons, symbolValues, symbolValue?_symbol d first, ih rest, Except.map]

theorem exists_symbol_of_mem_encode {c : Char} {bytes : Bytes} (mem : c ∈ encode bytes) :
    ∃ n < 32, c = symbol n := by
  obtain ⟨n, digit, rfl⟩ := List.mem_map.mp mem
  exact ⟨n, Radix.lt_of_mem_digits (by decide) digit, rfl⟩

theorem encode_ascii {bytes : Bytes} : ∀ c ∈ encode bytes, c.toNat < 128 := by
  intro c mem
  obtain ⟨n, small, rfl⟩ := exists_symbol_of_mem_encode mem
  exact symbol_ascii n small

/-- The bits of the symbols that no byte fills. -/
def fillLength (length : Nat) : Nat :=
  5 * encodedLength length - 8 * length

theorem fill_add (length : Nat) : 8 * length + fillLength length = 5 * encodedLength length := by
  unfold fillLength encodedLength
  omega

theorem fillLength_lt (length : Nat) : fillLength length < 5 := by
  unfold fillLength encodedLength
  omega

/-- The number of a byte string, filled up with zero bits, fits the symbols. -/
theorem filled_lt (bytes : Bytes) :
    Bytes.toNatBE bytes <<< fillLength bytes.length < 32 ^ encodedLength bytes.length := by
  calc Bytes.toNatBE bytes <<< fillLength bytes.length
    _ = Bytes.toNatBE bytes * 2 ^ fillLength bytes.length := Nat.shiftLeft_eq ..
    _ < 256 ^ bytes.length * 2 ^ fillLength bytes.length :=
      Nat.mul_lt_mul_of_pos_right (Bytes.toNatBE_lt bytes) (Nat.two_pow_pos _)
    _ = 2 ^ (8 * bytes.length + fillLength bytes.length) := by
      rw [Nat.pow_add, Nat.pow_mul]
    _ = 32 ^ encodedLength bytes.length := by
      rw [fill_add, Nat.pow_mul]

theorem decode_encode (bytes : Bytes) :
    decode (Bytes.ofText (String.ofList (encode bytes))) = .ok bytes := by
  have length : ((encode bytes).map Bytes.ofAscii).length = encodedLength bytes.length := by
    simp [encode]
  have values : symbolValues 0 ((encode bytes).map Bytes.ofAscii) =
      .ok (Radix.digits 32 (encodedLength bytes.length)
        (Bytes.toNatBE bytes <<< fillLength bytes.length)) :=
    symbolValues_symbols (fun d digit => Radix.lt_of_mem_digits (by decide) digit) 0
  have fill : fillLength bytes.length < 5 := fillLength_lt bytes.length
  have added := fill_add bytes.length
  -- the fill is what the symbols have beyond whole bytes, since it is less than a byte
  have spare : 5 * encodedLength bytes.length % 8 = fillLength bytes.length := by omega
  have whole : 5 * encodedLength bytes.length / 8 = bytes.length := by omega
  have zero : (Bytes.toNatBE bytes <<< fillLength bytes.length) % 2 ^ fillLength bytes.length = 0 := by
    rw [Nat.shiftLeft_eq, Nat.mul_mod_left]
  rw [decode, Bytes.ofText_ascii encode_ascii, length, spare, values]
  simp only [Nat.not_le.mpr fill, if_false, pure_eq_ok, ok_bind, Radix.value_digits,
    Nat.mod_eq_of_lt (filled_lt bytes), Nat.one_shiftLeft, zero, ne_eq, not_true_eq_false,
    Nat.shiftLeft_shiftRight, whole, Bytes.ofNatBE_toNatBE]

/-! ### Nothing but what is written -/

/-- A byte that is a symbol is the symbol of its value. -/
theorem eq_of_symbolValue? {b : UInt8} {n : Nat} (read : symbolValue? b = some n) :
    n < 32 ∧ b = Bytes.ofAscii (symbol n) := by
  have all : ∀ m < 256, ∀ n ∈ symbolValue? (UInt8.ofNat m),
      n < 32 ∧ UInt8.ofNat m = Bytes.ofAscii (symbol n) := by
    decide +kernel
  have here := all b.toNat b.toNat_lt
  rw [UInt8.ofNat_toNat] at here
  exact here n read

theorem eq_of_symbolValues {position : Nat} {text : Bytes} {ds : List Nat}
    (read : symbolValues position text = .ok ds) :
    (∀ d ∈ ds, d < 32) ∧ text = (ds.map symbol).map Bytes.ofAscii := by
  induction text generalizing position ds with
  | nil =>
    cases read
    exact ⟨List.forall_mem_nil _, rfl⟩
  | cons b rest ih =>
    rw [symbolValues] at read
    split at read
    · cases read
    · rename_i n first
      obtain ⟨more, later, rfl⟩ := map_eq_ok_iff.mp read
      obtain ⟨small, same⟩ := eq_of_symbolValue? first
      obtain ⟨allSmall, allSame⟩ := ih later
      refine ⟨List.forall_mem_cons.mpr ⟨small, allSmall⟩, ?_⟩
      rw [List.map_cons, List.map_cons, ← same, ← allSame]

/-- The symbols of bytes, told from a number that they spell: its lowest bits are zero, and the bytes have
the others. -/
theorem encode_ofNatBE {ds : List Nat} (small : ∀ d ∈ ds, d < 32) (fill : 5 * ds.length % 8 < 5)
    (zero : Radix.value 32 ds % 2 ^ (5 * ds.length % 8) = 0) :
    encode (Bytes.ofNatBE (5 * ds.length / 8) (Radix.value 32 ds >>> (5 * ds.length % 8))) =
      ds.map symbol := by
  have width : encodedLength (5 * ds.length / 8) = ds.length := by
    unfold encodedLength
    omega
  have spare : 5 * ds.length - 8 * (5 * ds.length / 8) = 5 * ds.length % 8 := by omega
  have bits : 5 * ds.length = 5 * ds.length % 8 + 8 * (5 * ds.length / 8) := by omega
  have bound : Radix.value 32 ds < 2 ^ (5 * ds.length) := by
    rw [Nat.pow_mul]
    exact Radix.value_lt small
  have fits : Radix.value 32 ds >>> (5 * ds.length % 8) < 256 ^ (5 * ds.length / 8) := by
    rw [Nat.shiftRight_eq_div_pow]
    apply Nat.div_lt_of_lt_mul
    calc Radix.value 32 ds
      _ < 2 ^ (5 * ds.length) := bound
      _ = 2 ^ (5 * ds.length % 8) * 256 ^ (5 * ds.length / 8) := by
        rw [show 256 = 2 ^ 8 from rfl, ← Nat.pow_mul, ← Nat.pow_add, ← bits]
  have filled : (Radix.value 32 ds >>> (5 * ds.length % 8)) <<< (5 * ds.length % 8) = Radix.value 32 ds := by
    rw [Nat.shiftRight_eq_div_pow, Nat.shiftLeft_eq]
    exact Nat.div_mul_cancel (Nat.dvd_of_mod_eq_zero zero)
  simp only [encode, Bytes.length_ofNatBE, width, spare, Bytes.toNatBE_ofNatBE, Nat.mod_eq_of_lt fits, filled,
    Radix.digits_value (by decide) small]

/-- What is read as bytes is what is written for them. -/
theorem eq_encode_of_decode {text bytes : Bytes} (h : decode text = .ok bytes) :
    text = (encode bytes).map Bytes.ofAscii := by
  simp only [decode] at h
  split at h
  · cases h
  rename_i fill
  obtain ⟨ds, read, h⟩ := bind_eq_ok_iff.mp h
  split at h
  · cases h
  rename_i zero
  cases h
  obtain ⟨small, rfl⟩ := eq_of_symbolValues read
  simp only [List.length_map, Nat.one_shiftLeft, ne_eq, not_not] at fill zero ⊢
  rw [encode_ofNatBE small (Nat.not_le.mp fill) zero]

/-- Bytes are read from what is written for them and from nothing else. -/
theorem decode_eq_ok_iff {chars : List Char} {bytes : Bytes} :
    decode (Bytes.ofText (String.ofList chars)) = .ok bytes ↔ chars = encode bytes := by
  constructor
  · intro h
    have same := eq_encode_of_decode h
    rw [← Bytes.ofText_ascii encode_ascii] at same
    have texts := congrArg String.toList (Bytes.ofText_injective same)
    rwa [String.toList_ofList, String.toList_ofList] at texts
  · rintro rfl
    exact decode_encode bytes

end Base32

end Certified
