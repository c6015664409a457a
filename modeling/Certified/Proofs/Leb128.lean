import Mathlib
import Certified.Leb128

/-!
Numbers written as base-128 digits read back, whatever follows them. What is read is the number that the
bytes up to the first clear high bit spell, and the bytes are refused if it does not end or does not fit.
-/

namespace Certified.Leb128

theorem readFrom_last {index : Nat} {b : UInt8} (hb : b < 128) (hi : index = 9 → b ≤ 1)
    (rest : Bytes) : readFrom index (b :: rest) = .ok b.toNat := by
  have hlast : ¬ (index = 9 ∧ 1 < b) := by
    rintro ⟨h9, h1⟩
    exact absurd (hi h9) (UInt8.not_le.mpr h1)
  rw [readFrom, if_neg hlast, if_pos hb]

theorem readFrom_more {index : Nat} {b : UInt8} (hb : ¬ b < 128) (hi : index ≠ 9) (rest : Bytes) :
    readFrom index (b :: rest) =
      (readFrom (index + 1) rest).map fun n => b.toNat % 128 + 128 * n := by
  have hlast : ¬ (index = 9 ∧ 1 < b) := fun h => hi h.1
  rw [readFrom, if_neg hlast, if_neg hb]

/-- From each digit on there are seven bits more to come than from the next one on. -/
theorem two_pow_sub_seven_mul {index : Nat} (hi : index < 9) :
    2 ^ (64 - 7 * index) = 128 * 2 ^ (64 - 7 * (index + 1)) := by
  rw [show 64 - 7 * index = 64 - 7 * (index + 1) + 7 by omega, pow_add, Nat.mul_comm]
  rfl

/-- The digits from the one of weight `128 ^ index` on; the tenth of them has one bit left. -/
theorem readFrom_digits_append (index n : Nat) (hi : index ≤ 9) (hn : n < 2 ^ (64 - 7 * index))
    (rest : Bytes) : readFrom index (digits n ++ rest) = .ok n := by
  induction n using Nat.strongRecOn generalizing index with
  | ind n ih =>
    rw [digits]
    split
    · rename_i small
      have value : (UInt8.ofNat n).toNat = n := by
        rw [UInt8.toNat_ofNat']
        omega
      have low : UInt8.ofNat n < 128 := by
        rw [UInt8.lt_iff_toNat_lt, value]
        exact small
      have bit : index = 9 → UInt8.ofNat n ≤ 1 := by
        rintro rfl
        rw [UInt8.le_iff_toNat_le, value]
        exact Nat.le_of_lt_succ hn
      rw [List.singleton_append, readFrom_last low bit, value]
    · rename_i big
      have value : (UInt8.ofNat (n % 128 + 128)).toNat = n % 128 + 128 := by
        rw [UInt8.toNat_ofNat']
        omega
      have high : ¬ UInt8.ofNat (n % 128 + 128) < 128 := by
        rw [UInt8.lt_iff_toNat_lt, value]
        simp
      have more : index ≠ 9 := by
        rintro rfl
        omega
      have next : n / 128 < 2 ^ (64 - 7 * (index + 1)) := by
        rw [two_pow_sub_seven_mul (by omega)] at hn
        omega
      rw [List.cons_append, readFrom_more high more, ih (n / 128) (by omega) (index + 1) (by omega) next,
        Except.map, value]
      congr 1
      omega

theorem read_write_append (n : UInt64) (rest : Bytes) : read (write n ++ rest) = .ok n := by
  rw [read, write, readFrom_digits_append 0 n.toNat (by omega) n.toNat_lt rest]
  simp [Except.map]

theorem read_write (n : UInt64) : read (write n) = .ok n := by
  simpa using read_write_append n []

/-- The index of the first byte that leaves its high bit clear, with which a number ends. -/
def lastDigit? (bytes : Bytes) : Option Nat :=
  bytes.findIdx? (· < 128)

/-- The number whose base-128 digits are the low seven bits of the bytes, least significant first and
however many there are. -/
def value (bytes : Bytes) : Nat :=
  Nat.ofDigits 128 (bytes.map fun b => b.toNat % 128)

@[simp] theorem value_nil : value [] = 0 := rfl

@[simp] theorem value_cons (b : UInt8) (bytes : Bytes) :
    value (b :: bytes) = b.toNat % 128 + 128 * value bytes := by
  simp [value, Nat.ofDigits_cons]

theorem lastDigit?_cons_of_lt {b : UInt8} (low : b < 128) (rest : Bytes) :
    lastDigit? (b :: rest) = some 0 := by
  simp [lastDigit?, List.findIdx?_cons, low]

theorem lastDigit?_cons_of_not_lt {b : UInt8} (high : ¬ b < 128) (rest : Bytes) :
    lastDigit? (b :: rest) = (lastDigit? rest).map (· + 1) := by
  simp [lastDigit?, List.findIdx?_cons, high]

theorem lastDigit?_eq_none_iff {bytes : Bytes} :
    lastDigit? bytes = none ↔ ∀ b ∈ bytes, ¬ b < 128 := by
  simp [lastDigit?]

theorem hasLast_eq (bytes : Bytes) : hasLast bytes = (lastDigit? bytes).isSome := by
  simp [hasLast, lastDigit?]

/-- A number that does not end is not read, however far it has come. -/
theorem readFrom_of_endless {index : Nat} {bytes : Bytes} (endless : lastDigit? bytes = none) :
    readFrom index bytes = .error .truncated := by
  induction bytes generalizing index with
  | nil => rfl
  | cons b rest ih =>
    have high : ¬ b < 128 := lastDigit?_eq_none_iff.mp endless b List.mem_cons_self
    by_cases tenth : index = 9 ∧ 1 < b
    · simp [readFrom, tenth, hasLast_eq, endless]
    · rw [lastDigit?_cons_of_not_lt high, Option.map_eq_none_iff] at endless
      rw [readFrom, if_neg tenth, if_neg high, ih endless]
      rfl

/-- The last digit itself: the tenth one has one bit left. -/
theorem readFrom_of_lt {index : Nat} {b : UInt8} (low : b < 128) (hi : index ≤ 9) (rest : Bytes) :
    readFrom index (b :: rest) =
      if b.toNat < 2 ^ (64 - 7 * index) then .ok b.toNat else .error .tooLarge := by
  have small : b.toNat < 128 := UInt8.lt_iff_toNat_lt.mp low
  by_cases tenth : index = 9
  · subst tenth
    by_cases bit : b ≤ 1
    · have room : b.toNat < 2 ^ (64 - 7 * 9) := Nat.lt_succ_of_le (UInt8.le_iff_toNat_le.mp bit)
      rw [readFrom_last low (fun _ => bit), if_pos room]
    · have full : ¬ b.toNat < 2 ^ (64 - 7 * 9) := fun room =>
        bit (UInt8.le_iff_toNat_le.mpr (Nat.le_of_lt_succ room))
      rw [if_neg full, readFrom, if_pos ⟨rfl, UInt8.not_le.mp bit⟩, hasLast_eq,
        lastDigit?_cons_of_lt low]
      rfl
  · have room : b.toNat < 2 ^ (64 - 7 * index) := by
      rw [two_pow_sub_seven_mul (by omega)]
      have := Nat.one_le_two_pow (n := 64 - 7 * (index + 1))
      omega
    rw [readFrom_last low (fun same => absurd same tenth), if_pos room]

/-- What is read from the digit of weight `128 ^ index` on is the number up to its last digit, if this is
one of the ten digits and the number fits the bits that are left. -/
theorem readFrom_of_last {index j : Nat} {bytes : Bytes} (hi : index ≤ 9)
    (last : lastDigit? bytes = some j) :
    readFrom index bytes =
      if index + j ≤ 9 ∧ value (bytes.take (j + 1)) < 2 ^ (64 - 7 * index) then
        .ok (value (bytes.take (j + 1)))
      else .error .tooLarge := by
  induction bytes generalizing index j with
  | nil => cases last
  | cons b rest ih =>
    by_cases low : b < 128
    · rw [lastDigit?_cons_of_lt low] at last
      cases last
      have single : value ((b :: rest).take (0 + 1)) = b.toNat := by
        simp only [List.take_succ_cons, List.take_zero, value_cons, value_nil]
        exact Nat.mod_eq_of_lt (UInt8.lt_iff_toNat_lt.mp low)
      rw [single, readFrom_of_lt low hi]
      simp [hi]
    · have next := last
      rw [lastDigit?_cons_of_not_lt low] at next
      obtain ⟨i, later, rfl⟩ := Option.map_eq_some_iff.mp next
      rw [List.take_succ_cons, value_cons]
      by_cases tenth : index = 9
      · have big : 1 < b := UInt8.lt_of_lt_of_le (by decide) (UInt8.not_lt.mp low)
        have ends : hasLast (b :: rest) = true := by simp [hasLast_eq, last]
        simp [readFrom, tenth, big, ends]
      · have digit : b.toNat % 128 < 128 := Nat.mod_lt _ (by omega)
        have fits : index + (i + 1) ≤ 9 ∧
              b.toNat % 128 + 128 * value (rest.take (i + 1)) < 2 ^ (64 - 7 * index) ↔
            index + 1 + i ≤ 9 ∧ value (rest.take (i + 1)) < 2 ^ (64 - 7 * (index + 1)) := by
          rw [two_pow_sub_seven_mul (by omega)]
          omega
        rw [readFrom_more low tenth, ih (by omega) later]
        simp only [fits]
        split <;> rfl

/-- Why a byte string does not start with a number of 64 bits. -/
inductive Unreadable (bytes : Bytes) : ReadError → Prop where
  | truncated (endless : lastDigit? bytes = none) : Unreadable bytes .truncated
  | tooLong {j : Nat} (last : lastDigit? bytes = some j) (long : 9 < j) : Unreadable bytes .tooLarge
  | tooLarge {j : Nat} (last : lastDigit? bytes = some j)
    (large : 2 ^ 64 ≤ value (bytes.take (j + 1))) : Unreadable bytes .tooLarge

theorem read_of_last {j : Nat} {bytes : Bytes} (last : lastDigit? bytes = some j) :
    read bytes =
      if j ≤ 9 ∧ value (bytes.take (j + 1)) < 2 ^ 64 then
        .ok (UInt64.ofNat (value (bytes.take (j + 1))))
      else .error .tooLarge := by
  rw [read, readFrom_of_last (Nat.zero_le 9) last, Nat.zero_add]
  split <;> rfl

theorem read_eq_ok_iff {bytes : Bytes} {n : UInt64} :
    read bytes = .ok n ↔
      ∃ j ≤ 9, lastDigit? bytes = some j ∧ value (bytes.take (j + 1)) = n.toNat := by
  constructor
  · intro h
    cases last : lastDigit? bytes with
    | none => simp [read, readFrom_of_endless last, Except.map] at h
    | some j =>
      rw [read_of_last last] at h
      split at h
      · rename_i fits
        obtain ⟨near, small⟩ := fits
        cases h
        refine ⟨j, near, rfl, ?_⟩
        rw [UInt64.toNat_ofNat_of_lt' small]
      · cases h
  · intro h
    obtain ⟨j, near, last, same⟩ := h
    rw [read_of_last last, same, if_pos ⟨near, n.toNat_lt⟩, UInt64.ofNat_toNat]

theorem read_eq_error_iff {bytes : Bytes} {cause : ReadError} :
    read bytes = .error cause ↔ Unreadable bytes cause := by
  constructor
  · intro h
    cases last : lastDigit? bytes with
    | none =>
      rw [read, readFrom_of_endless last] at h
      cases h
      exact .truncated last
    | some j =>
      rw [read_of_last last] at h
      split at h
      · cases h
      · rename_i large
        cases h
        by_cases near : j ≤ 9
        · exact .tooLarge last (by omega)
        · exact .tooLong last (by omega)
  · intro h
    cases h with
    | truncated endless =>
      rw [read, readFrom_of_endless endless]
      rfl
    | tooLong last long => rw [read_of_last last, if_neg (by omega)]
    | tooLarge last large => rw [read_of_last last, if_neg (by omega)]

/-- All digits of a number but the last have their high bit set. -/
theorem exists_digits_eq (n : Nat) :
    ∃ front last, digits n = front ++ [last] ∧ ∀ b ∈ front, ¬ b < 128 := by
  induction n using Nat.strongRecOn with
  | ind n ih =>
    rw [digits]
    split
    · exact ⟨[], UInt8.ofNat n, rfl, List.forall_mem_nil _⟩
    · rename_i big
      obtain ⟨front, last, same, high⟩ := ih (n / 128) (by omega)
      refine ⟨UInt8.ofNat (n % 128 + 128) :: front, last, by rw [same, List.cons_append], ?_⟩
      refine List.forall_mem_cons.mpr ⟨?_, high⟩
      rw [UInt8.lt_iff_toNat_lt, UInt8.toNat_ofNat']
      simp
      omega

/-- A number that was cut off does not end. -/
theorem lastDigit?_of_prefix {n : UInt64} {part : Bytes} (h : part <+: write n) (ne : part ≠ write n) :
    lastDigit? part = none := by
  obtain ⟨front, last, same, high⟩ := exists_digits_eq n.toNat
  rw [write, same] at h ne
  have inFront : part <+: front := (List.prefix_concat_iff.mp h).resolve_left ne
  exact lastDigit?_eq_none_iff.mpr fun b mem => high b (inFront.subset mem)

end Certified.Leb128
