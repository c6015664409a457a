import Certified.Proofs.Base32

/-!
Symbols stand for bits. The bits of a byte string are taken five by five, with zeros after the last of them, and
each five is written as the symbol with its number in the alphabet.
-/

namespace Certified

/-- What is undone for each value of a list is undone for the list. -/
theorem map_map_eq_self {α β : Type} {f : α → β} {g : β → α} {values : List α}
    (undoes : ∀ a ∈ values, g (f a) = a) : (values.map f).map g = values := by
  rw [List.map_map]
  exact (List.map_congr_left undoes).trans (List.map_id values)

namespace Bytes

/-- The bits of bytes, the most significant bit of each byte first. -/
def bits (bytes : Bytes) : List Nat :=
  bytes.flatMap fun b => Radix.digits 2 8 b.toNat

theorem bits_append_singleton (bytes : Bytes) (b : UInt8) :
    bits (bytes ++ [b]) = bits bytes ++ Radix.digits 2 8 b.toNat := by
  rw [bits, List.flatMap_append, List.flatMap_singleton, bits]

theorem length_bits (bytes : Bytes) : (bits bytes).length = 8 * bytes.length := by
  induction bytes using List.reverseRecOn with
  | nil => rfl
  | append_singleton bytes b ih =>
    rw [bits_append_singleton, List.length_append, ih, Radix.length_digits, List.length_append,
      List.length_singleton, Nat.mul_succ]

theorem lt_two_of_mem_bits {n : Nat} {bytes : Bytes} (mem : n ∈ bits bytes) : n < 2 := by
  obtain ⟨b, _, digit⟩ := List.mem_flatMap.mp mem
  exact Radix.lt_of_mem_digits (by decide) digit

/-- Bits spell the number that their bytes spell. -/
theorem value_bits (bytes : Bytes) : Radix.value 2 (bits bytes) = toNatBE bytes := by
  induction bytes using List.reverseRecOn with
  | nil => rfl
  | append_singleton bytes b ih =>
    have small : b.toNat < 2 ^ 8 := b.toNat_lt
    rw [bits_append_singleton, Radix.value_append, ih, Radix.value_digits, Radix.length_digits,
      Nat.mod_eq_of_lt small, toNatBE_append_singleton, Nat.mul_comm]
    rfl

end Bytes

namespace Base32

/-- The numbers that bits spell five by five. After the last bits come zeros. -/
def quintets : List Nat → List Nat
  | a :: b :: c :: d :: e :: rest => Radix.value 2 [a, b, c, d, e] :: quintets rest
  | [] => []
  | short => [Radix.value 2 (short ++ List.replicate (5 - short.length) 0)]

theorem length_quintets : ∀ bits, (quintets bits).length = (bits.length + 4) / 5
  | _ :: _ :: _ :: _ :: _ :: rest => by
    have ih := length_quintets rest
    simp only [quintets, List.length_cons, ih]
    omega
  | [] | [_] | [_, _] | [_, _, _] | [_, _, _, _] => by simp [quintets]

theorem lt_of_mem_quintets : ∀ bits, (∀ n ∈ bits, n < 2) → ∀ n ∈ quintets bits, n < 32
  | a :: b :: c :: d :: e :: rest, binary => by
    have parts : ∀ n ∈ [a, b, c, d, e] ++ rest, n < 2 := binary
    obtain ⟨five, later⟩ := List.forall_mem_append.mp parts
    exact List.forall_mem_cons.mpr ⟨Radix.value_lt five, lt_of_mem_quintets rest later⟩
  | [], _ => List.forall_mem_nil _
  | [_], binary | [_, _], binary | [_, _, _], binary | [_, _, _, _], binary => by
    refine List.forall_mem_singleton.mpr (Radix.value_lt ?_)
    exact List.forall_mem_append.mpr ⟨binary, by simp⟩

/-- Behind a point, bits and their fives spell the same fraction: no zero at the end counts. -/
theorem value_quintets : ∀ bits, Radix.value 32 (quintets bits) * 2 ^ bits.length =
    Radix.value 2 bits * 32 ^ (quintets bits).length
  | a :: b :: c :: d :: e :: rest => by
    have ih := value_quintets rest
    have whole := Radix.value_append 2 [a, b, c, d, e] rest
    simp only [List.cons_append, List.nil_append] at whole
    rw [whole, quintets, Radix.value_cons]
    simp only [List.length_cons, Nat.pow_succ]
    -- five bits more are a factor of thirty-two on both sides
    linear_combination 32 * ih
  | [] => rfl
  | [_] | [_, _] | [_, _, _] | [_, _, _, _] => by
    simp only [quintets, Radix.value_append_zeros, Radix.value_singleton, List.length_cons, List.length_nil]
    ring

theorem length_quintets_bits (bytes : Bytes) :
    (quintets (Bytes.bits bytes)).length = encodedLength bytes.length := by
  rw [length_quintets, Bytes.length_bits, encodedLength]

/-- The fives of bytes spell the number of the bytes with the fill behind it. -/
theorem value_quintets_bits (bytes : Bytes) :
    Radix.value 32 (quintets (Bytes.bits bytes)) = Bytes.toNatBE bytes <<< fillLength bytes.length := by
  have fraction := value_quintets (Bytes.bits bytes)
  rw [Bytes.value_bits, Bytes.length_bits, length_quintets_bits] at fraction
  apply Nat.eq_of_mul_eq_mul_right (Nat.two_pow_pos (8 * bytes.length))
  calc Radix.value 32 (quintets (Bytes.bits bytes)) * 2 ^ (8 * bytes.length)
    _ = Bytes.toNatBE bytes * 32 ^ encodedLength bytes.length := fraction
    _ = Bytes.toNatBE bytes * 2 ^ (8 * bytes.length + fillLength bytes.length) := by
      rw [fill_add, Nat.pow_mul]
    _ = Bytes.toNatBE bytes <<< fillLength bytes.length * 2 ^ (8 * bytes.length) := by
      rw [Nat.shiftLeft_eq, Nat.pow_add]
      ring

/-- Each symbol that is written for bytes is that of five bits. -/
theorem encode_eq_map_quintets (bytes : Bytes) :
    encode bytes = (quintets (Bytes.bits bytes)).map symbol := by
  have small := lt_of_mem_quintets (Bytes.bits bytes) fun _ => Bytes.lt_two_of_mem_bits
  have digits := Radix.digits_value (by decide) small
  rw [length_quintets_bits, value_quintets_bits] at digits
  rw [← digits]
  rfl

/-- The symbols in the order of the numbers that they stand for. -/
def alphabet : List Char :=
  "ABCDEFGHIJKLMNOPQRSTUVWXYZ234567".toList

theorem alphabet_eq : alphabet = (List.range 32).map symbol := by
  decide

theorem mem_alphabet_iff {c : Char} : c ∈ alphabet ↔ ∃ n < 32, symbol n = c := by
  simp only [alphabet_eq, List.mem_map, List.mem_range]

theorem idxOf_symbol : ∀ n < 32, alphabet.idxOf (symbol n) = n := by
  decide

/-- Symbols that stand for the bits of bytes, five bits each. -/
structure Spells (symbols : List Char) (bytes : Bytes) : Prop where
  known : ∀ c ∈ symbols, c ∈ alphabet
  bits : symbols.map alphabet.idxOf = quintets (Bytes.bits bytes)

/-- What is written for bytes stands for their bits, and nothing else does. -/
theorem spells_iff {symbols : List Char} {bytes : Bytes} : Spells symbols bytes ↔ symbols = encode bytes := by
  rw [encode_eq_map_quintets]
  constructor
  · rintro ⟨known, bits⟩
    have back : ∀ c ∈ symbols, symbol (alphabet.idxOf c) = c := by
      intro c mem
      obtain ⟨n, small, rfl⟩ := mem_alphabet_iff.mp (known c mem)
      rw [idxOf_symbol n small]
    rw [← bits, map_map_eq_self back]
  · rintro rfl
    have small := lt_of_mem_quintets (Bytes.bits bytes) fun _ => Bytes.lt_two_of_mem_bits
    constructor
    · intro c mem
      obtain ⟨n, five, rfl⟩ := List.mem_map.mp mem
      exact mem_alphabet_iff.mpr ⟨n, small n five, rfl⟩
    · exact map_map_eq_self fun n five => idxOf_symbol n (small n five)

end Base32
end Certified
