import Mathlib
import Certified.Proofs.Certificate.Time
import Certified.Proofs.Verification.Window

/-!
The window of time around the clock, at all its limits. Numbers of 64 bits are compared as if there were no
words at all, and signed words of 128 bits are wide enough for it.
-/

namespace Certified

/-- A number of 64 bits in a signed word of 128. -/
def word (n : UInt64) : BitVec 128 :=
  n.toBitVec.setWidth 128

@[simp] theorem toInt_word (n : UInt64) : (word n).toInt = n.toNat := by
  have small : 2 * (word n).toNat < 2 ^ 128 := by
    have := n.toNat_lt
    rw [word, BitVec.toNat_setWidth_of_le (by omega)]
    simp only [UInt64.toNat_toBitVec]
    omega
  rw [BitVec.toInt_eq_toNat_of_lt small, word, BitVec.toNat_setWidth_of_le (by omega)]
  rfl

theorem ssubOverflow_word (a b : UInt64) : (word a).ssubOverflow (word b) = false := by
  have := a.toNat_lt
  have := b.toNat_lt
  simp only [BitVec.ssubOverflow, toInt_word, Bool.or_eq_false_iff, decide_eq_false_iff_not]
  omega

theorem saddOverflow_word (a b : UInt64) : (word a).saddOverflow (word b) = false := by
  have := a.toNat_lt
  have := b.toNat_lt
  simp only [BitVec.saddOverflow, toInt_word, Bool.or_eq_false_iff, decide_eq_false_iff_not]
  omega

theorem slt_sub_word (now ms offset : UInt64) :
    (word now).slt (word ms - word offset) = true ↔ now.toNat + offset.toNat < ms.toNat := by
  have exact : ¬ (word ms).ssubOverflow (word offset) = true := by simp [ssubOverflow_word]
  rw [BitVec.slt_iff_toInt_lt, BitVec.toInt_sub_of_not_ssubOverflow exact]
  simp only [toInt_word]
  omega

theorem add_slt_word (now ms offset : UInt64) :
    (word ms + word offset).slt (word now) = true ↔ ms.toNat + offset.toNat < now.toNat := by
  have exact : ¬ (word ms).saddOverflow (word offset) = true := by simp [saddOverflow_word]
  rw [BitVec.slt_iff_toInt_lt, BitVec.toInt_add_of_not_saddOverflow exact]
  simp only [toInt_word]
  omega

namespace Certificate

/-- The check of the time as it is done in words: the offset is taken from the certificate's time and added
to it, and both are compared with the clock. Sums and differences that do not fit a word would wrap
around. -/
def checkTimeInWords (maxOffset now : UInt64) (c : Certificate) : Except VerificationError Unit := do
  let nanos ← c.time.mapError .decode
  let ms := nanos / 1000000
  if (word now).slt (word ms - word maxOffset) then .error (.time (.tooFarInFuture ms now))
  else if (word ms + word maxOffset).slt (word now) then .error (.time (.tooFarInPast ms now))
  else return ()

theorem checkTimeInWords_eq (maxOffset now : UInt64) (c : Certificate) :
    c.checkTimeInWords maxOffset now = c.checkTime maxOffset now := by
  simp only [checkTimeInWords, checkTime, slt_sub_word, add_slt_word]

variable {maxOffset wider now before after : UInt64} {c : Certificate}

theorem checkTime_of_le (le : maxOffset ≤ wider) (h : c.checkTime maxOffset now = .ok ()) :
    c.checkTime wider now = .ok () := by
  obtain ⟨nanos, time, timely⟩ := checkTime_eq_ok_iff.mp h
  have le := UInt64.le_iff_toNat_le.mp le
  rw [timely_iff] at timely
  exact checkTime_eq_ok_iff.mpr ⟨nanos, time, timely_iff.mpr ⟨by omega, by omega⟩⟩

theorem checkTime_of_between (low : before ≤ now) (high : now ≤ after)
    (first : c.checkTime maxOffset before = .ok ()) (last : c.checkTime maxOffset after = .ok ()) :
    c.checkTime maxOffset now = .ok () := by
  obtain ⟨nanos, time, timelyBefore⟩ := checkTime_eq_ok_iff.mp first
  obtain ⟨nanos', time', timelyAfter⟩ := checkTime_eq_ok_iff.mp last
  obtain rfl : nanos = nanos' := by simpa [time] using time'
  have := UInt64.le_iff_toNat_le.mp low
  have := UInt64.le_iff_toNat_le.mp high
  rw [timely_iff] at timelyBefore timelyAfter
  exact checkTime_eq_ok_iff.mpr ⟨nanos, time, timely_iff.mpr ⟨by omega, by omega⟩⟩

theorem checkTime_eq_future_iff {ms clock : UInt64} :
    c.checkTime maxOffset now = .error (.time (.tooFarInFuture ms clock)) ↔
      clock = now ∧ ∃ nanos, c.time = .ok nanos ∧ ms = nanos / 1000000 ∧
        now.toNat + maxOffset.toNat < nanos.toNat / 1000000 := by
  rw [checkTime_eq_error_iff]
  constructor
  · intro h
    cases h with
    | future time late => exact ⟨rfl, _, time, rfl, late⟩
  · intro h
    obtain ⟨rfl, nanos, time, rfl, late⟩ := h
    exact .future time late

theorem checkTime_eq_past_iff {ms clock : UInt64} :
    c.checkTime maxOffset now = .error (.time (.tooFarInPast ms clock)) ↔
      clock = now ∧ ∃ nanos, c.time = .ok nanos ∧ ms = nanos / 1000000 ∧
        nanos.toNat / 1000000 + maxOffset.toNat < now.toNat := by
  rw [checkTime_eq_error_iff]
  constructor
  · intro h
    cases h with
    | past time early => exact ⟨rfl, _, time, rfl, early⟩
  · intro h
    obtain ⟨rfl, nanos, time, rfl, early⟩ := h
    exact .past time early

theorem checkTime_eq_decode_iff {cause : DecodeError} :
    c.checkTime maxOffset now = .error (.decode cause) ↔ c.time = .error cause := by
  rw [checkTime_eq_error_iff]
  constructor
  · intro h
    cases h with
    | unreadable time => exact time
  · intro time
    exact .unreadable time

/-- A certificate passes the check of its time exactly if its time can be read and, over the integers, is no
further from the clock than the offset; beyond that it is too far in the future or in the past, whichever side
it is on. No sum or difference overflows a signed word of 128 bits, so the check can be done in such words. A
wider offset refuses nothing that a narrower one lets pass, and between two clocks at which the certificate
passes it passes at each. -/
theorem time_window_exact (c : Certificate) (maxOffset now : UInt64) :
    (c.checkTime maxOffset now = .ok () ↔ ∃ nanos, c.time = .ok nanos ∧
      |((nanos.toNat / 1000000 : Nat) : Int) - now.toNat| ≤ maxOffset.toNat) ∧
    (∀ ms clock, c.checkTime maxOffset now = .error (.time (.tooFarInFuture ms clock)) ↔
      clock = now ∧ ∃ nanos, c.time = .ok nanos ∧ ms = nanos / 1000000 ∧
        now.toNat + maxOffset.toNat < nanos.toNat / 1000000) ∧
    (∀ ms clock, c.checkTime maxOffset now = .error (.time (.tooFarInPast ms clock)) ↔
      clock = now ∧ ∃ nanos, c.time = .ok nanos ∧ ms = nanos / 1000000 ∧
        nanos.toNat / 1000000 + maxOffset.toNat < now.toNat) ∧
    (∀ cause, c.checkTime maxOffset now = .error (.decode cause) ↔ c.time = .error cause) ∧
    c.checkTime maxOffset now = c.checkTimeInWords maxOffset now ∧
    (∀ ms : UInt64, (word ms).ssubOverflow (word maxOffset) = false ∧
      (word ms).saddOverflow (word maxOffset) = false) ∧
    (∀ wider, maxOffset ≤ wider → c.checkTime maxOffset now = .ok () → c.checkTime wider now = .ok ()) ∧
    (∀ before after, before ≤ now → now ≤ after → c.checkTime maxOffset before = .ok () →
      c.checkTime maxOffset after = .ok () → c.checkTime maxOffset now = .ok ()) := by
  refine ⟨?_, ?_, ?_, ?_, ?_, ?_, ?_, ?_⟩
  · rw [checkTime_eq_ok_iff]
    refine exists_congr fun nanos => and_congr_right fun _ => ?_
    rw [Timely, Int.abs_eq_natAbs, Int.ofNat_le]
  · intro ms clock
    exact checkTime_eq_future_iff
  · intro ms clock
    exact checkTime_eq_past_iff
  · intro cause
    exact checkTime_eq_decode_iff
  · exact (checkTimeInWords_eq maxOffset now c).symm
  · intro ms
    exact ⟨ssubOverflow_word ms maxOffset, saddOverflow_word ms maxOffset⟩
  · intro wider le
    exact checkTime_of_le le
  · intro before after low high
    exact checkTime_of_between low high

namespace Sample

theorem time_dated (nanos : UInt64) : (dated (Leb128.write nanos)).time = .ok nanos := by
  rw [time_of_found (lookup_dated _), Leb128.read_write, mapError_ok]

end Sample

/-- One nanosecond before the sixth second: at both limits and one millisecond beyond each, with the widest
offset, and at a clock between two others. -/
theorem time_window_exact_sample :
    (Sample.dated (Leb128.write 5999999999)).checkTime 999 5000 = .ok () ∧
    (Sample.dated (Leb128.write 5999999999)).checkTime 999 6998 = .ok () ∧
    (Sample.dated (Leb128.write 5999999999)).checkTime 999 4999 =
      .error (.time (.tooFarInFuture 5999 4999)) ∧
    (Sample.dated (Leb128.write 5999999999)).checkTime 999 6999 =
      .error (.time (.tooFarInPast 5999 6999)) ∧
    (Sample.dated (Leb128.write 5999999999)).checkTime 18446744073709551615 5000 = .ok () ∧
    (Sample.dated (Leb128.write 5999999999)).checkTime 999 6000 = .ok () := by
  have exact := time_window_exact (Sample.dated (Leb128.write 5999999999))
  have first := (exact 999 5000).1.mpr ⟨_, Sample.time_dated _, by decide⟩
  have last := (exact 999 6998).1.mpr ⟨_, Sample.time_dated _, by decide⟩
  refine ⟨first, last, ?_, ?_, ?_, ?_⟩
  · exact ((exact 999 4999).2.1 5999 4999).mpr ⟨rfl, _, Sample.time_dated _, rfl, by decide⟩
  · exact ((exact 999 6999).2.2.1 5999 6999).mpr ⟨rfl, _, Sample.time_dated _, rfl, by decide⟩
  · exact (exact 999 5000).2.2.2.2.2.2.1 _ (by decide) first
  · exact (exact 999 6000).2.2.2.2.2.2.2 _ _ (by decide) (by decide) first last

end Certificate
end Certified
