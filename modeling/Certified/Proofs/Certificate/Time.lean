import Certified.Certificate.Basic
import Certified.Proofs.Leb128
import Certified.Proofs.Steps

/-!
The time of a certificate. It is the number that the leaf spells, without a bound on its digits, or it is
refused: no number is ever cut to 64 bits.
-/

namespace Certified.Certificate

variable {c : Certificate} {bytes : Bytes}

theorem time_of_found (h : c.tree.lookup timePath = .found bytes) :
    c.time = (Leb128.read bytes).mapError fun cause => .certificate (.timeNotNumber cause) := by
  simp only [time, h]

/-- Where a certificate has a leaf for its time, the time is a number exactly if the first byte with its high
bit clear is among the first ten and what is spelled up to there, of whatever size, is this number. Otherwise
the certificate is refused as malformed, since the number does not end, or is too long, or is too large. So a
number that was written is read, whatever follows it, and none that was cut off is. -/
theorem time_exact :
    (∀ (c : Certificate) (bytes : Bytes), c.tree.lookup timePath = .found bytes →
      (∀ n, c.time = .ok n ↔ ∃ j ≤ 9, Leb128.lastDigit? bytes = some j ∧
        Leb128.value (bytes.take (j + 1)) = n.toNat) ∧
      (∀ e, c.time = .error e ↔ ∃ cause, Leb128.Unreadable bytes cause ∧
        e = .certificate (.timeNotNumber cause))) ∧
    (∀ (c : Certificate) (n : UInt64) (rest : Bytes),
      c.tree.lookup timePath = .found (Leb128.write n ++ rest) → c.time = .ok n) ∧
    (∀ (c : Certificate) (n : UInt64) (part : Bytes), part <+: Leb128.write n → part ≠ Leb128.write n →
      c.tree.lookup timePath = .found part →
      c.time = .error (.certificate (.timeNotNumber .truncated))) := by
  refine ⟨?_, ?_, ?_⟩
  · intro c bytes found
    refine ⟨?_, ?_⟩
    · intro n
      rw [time_of_found found, mapError_eq_ok_iff]
      exact Leb128.read_eq_ok_iff
    · intro e
      rw [time_of_found found, mapError_eq_error_iff]
      exact exists_congr fun cause => and_congr Leb128.read_eq_error_iff eq_comm
  · intro c n rest found
    rw [time_of_found found, Leb128.read_write_append, mapError_ok]
  · intro c n part cut ne found
    have endless := Leb128.lastDigit?_of_prefix cut ne
    rw [time_of_found found, Leb128.read_eq_error_iff.mpr (.truncated endless), mapError_error]

namespace Sample

/-- A certificate that holds nothing but its time. -/
def dated (bytes : Bytes) : Certificate where
  tree := .labeled (Bytes.ofText "time") (.leaf bytes)
  signature := []
  delegation := none

theorem lookup_dated (bytes : Bytes) : (dated bytes).tree.lookup timePath = .found bytes := by
  simp [dated, timePath, HashTree.lookup]

end Sample

/-- The largest number before other bytes, a number with a digit too many, one of 65 bits, which is not taken
for zero, and the largest number without its last byte. -/
theorem time_exact_sample :
    (Sample.dated (Leb128.write 18446744073709551615 ++ [0xff])).time = .ok 18446744073709551615 ∧
    (Sample.dated [0x81, 0x00]).time = .ok 1 ∧
    (Sample.dated [0x80, 0x80, 0x80, 0x80, 0x80, 0x80, 0x80, 0x80, 0x80, 0x02]).time =
      .error (.certificate (.timeNotNumber .tooLarge)) ∧
    (Sample.dated ((Leb128.write 18446744073709551615).take 9)).time =
      .error (.certificate (.timeNotNumber .truncated)) := by
  obtain ⟨exact, written, cut⟩ := time_exact
  refine ⟨?_, ?_, ?_, ?_⟩
  · exact written _ _ _ (Sample.lookup_dated _)
  · refine ((exact _ _ (Sample.lookup_dated _)).1 1).mpr ⟨1, by omega, rfl, ?_⟩
    simp
  · refine ((exact _ _ (Sample.lookup_dated _)).2 _).mpr ⟨.tooLarge, ?_, rfl⟩
    exact .tooLarge (j := 9) rfl (by simp)
  · apply cut _ 18446744073709551615 _ (List.take_prefix _ _) _ (Sample.lookup_dated _)
    intro same
    have := congrArg List.length same
    simp [Leb128.write, Leb128.digits] at this

end Certified.Certificate
