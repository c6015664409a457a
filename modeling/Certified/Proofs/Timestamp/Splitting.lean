import Mathlib
import Certified.Timestamp
import Certified.Proofs.Verification.Freshness

/-!
A number of nanoseconds is split into seconds and nanoseconds without a loss: no word wraps around, the order
stays, and the milliseconds are those that the verifier compares with its clock.
-/

namespace Certified

namespace Timestamp

/-- The nanoseconds since the start of 1970 that a timestamp stands for. -/
def unixNanos (t : Timestamp) : Int :=
  t.seconds.toInt * 1000000000 + t.nanos.toNat

/-- The nanoseconds are less than a second. -/
def Split (t : Timestamp) : Prop :=
  t.nanos.toNat < 1000000000

theorem toInt_toInt64 {n : UInt64} (small : n.toNat < 2 ^ 63) : n.toInt64.toInt = n.toNat := by
  have bits : n.toInt64.toInt = n.toBitVec.toInt := rfl
  rw [bits, BitVec.toInt_eq_toNat_of_lt (by rw [UInt64.toNat_toBitVec]; omega), UInt64.toNat_toBitVec]

theorem toInt_seconds (n : UInt64) :
    (ofUnixNanos n).seconds.toInt = (n.toNat / 1000000000 : Nat) := by
  have seconds : (n / 1000000000).toNat = n.toNat / 1000000000 := UInt64.toNat_div ..
  have bound : n.toNat < 2 ^ 64 := n.toNat_lt
  rw [ofUnixNanos, toInt_toInt64 (by omega), seconds]

theorem toNat_nanos (n : UInt64) : (ofUnixNanos n).nanos.toNat = n.toNat % 1000000000 := by
  have nanos : (n % 1000000000).toNat = n.toNat % 1000000000 := UInt64.toNat_mod ..
  rw [ofUnixNanos, UInt64.toNat_toUInt32, nanos]
  omega

theorem split_ofUnixNanos (n : UInt64) : (ofUnixNanos n).Split := by
  rw [Split, toNat_nanos]
  omega

theorem unixNanos_ofUnixNanos (n : UInt64) : (ofUnixNanos n).unixNanos = n.toNat := by
  rw [unixNanos, toInt_seconds, toNat_nanos]
  omega

/-- Seconds decide first, since the nanoseconds never make up for one. -/
theorem le_iff_unixNanos_le {s t : Timestamp} (left : s.Split) (right : t.Split) :
    s ≤ t ↔ s.unixNanos ≤ t.unixNanos := by
  have order : s ≤ t ↔
      s.seconds.toInt < t.seconds.toInt ∨
        s.seconds.toInt = t.seconds.toInt ∧ s.nanos.toNat ≤ t.nanos.toNat := by
    rw [Int64.toInt_inj, ← Int64.lt_iff_toInt_lt, ← UInt32.le_iff_toNat_le]
    rfl
  unfold Split at left right
  rw [order, unixNanos, unixNanos]
  omega

/-! ### Milliseconds -/

theorem toInt_seconds_mul (n : UInt64) :
    ((ofUnixNanos n).seconds * 1000).toInt = (ofUnixNanos n).seconds.toInt * 1000 := by
  have bound : n.toNat < 2 ^ 64 := n.toNat_lt
  have thousand : (1000 : Int64).toInt = 1000 := rfl
  rw [Int64.toInt_mul, thousand, toInt_seconds]
  apply Int.bmod_eq_of_le <;> omega

theorem toInt_nanosMillis (n : UInt64) :
    (Int64.ofNat ((ofUnixNanos n).nanos.toNat / 1000000)).toInt =
      ((ofUnixNanos n).nanos.toNat / 1000000 : Nat) := by
  have small : (ofUnixNanos n).nanos.toNat < 1000000000 := split_ofUnixNanos n
  apply Int64.toInt_ofNat_of_lt
  omega

theorem toInt_millis_eq_add (n : UInt64) :
    (ofUnixNanos n).millis.toInt =
      (ofUnixNanos n).seconds.toInt * 1000 + ((ofUnixNanos n).nanos.toNat / 1000000 : Nat) := by
  have bound : n.toNat < 2 ^ 64 := n.toNat_lt
  rw [millis, Int64.toInt_add, toInt_seconds_mul, toInt_nanosMillis, toInt_seconds, toNat_nanos]
  apply Int.bmod_eq_of_le <;> omega

theorem toInt_millis (n : UInt64) : (ofUnixNanos n).millis.toInt = (n.toNat / 1000000 : Nat) := by
  rw [toInt_millis_eq_add, toInt_seconds, toNat_nanos]
  omega

/-- The verifier's milliseconds, which it divides out of the nanoseconds at once. -/
theorem toUInt64_millis (n : UInt64) : (ofUnixNanos n).millis.toUInt64 = n / 1000000 := by
  have bits : (ofUnixNanos n).millis.toUInt64.toNat = (ofUnixNanos n).millis.toBitVec.toNat := rfl
  have value : (ofUnixNanos n).millis.toBitVec.toInt = (n.toNat / 1000000 : Nat) := toInt_millis n
  have bound : n.toNat < 2 ^ 64 := n.toNat_lt
  apply UInt64.toNat_inj.mp
  rw [bits, toNat_millis]
  rw [BitVec.toInt_eq_toNat_cond] at value
  split at value <;> omega

/-- The window of time around the clock, for a certificate of some milliseconds. -/
def checkMillis (maxOffset now : UInt64) (ms : Int64) : Except TimeError Unit :=
  if now.toNat + maxOffset.toNat < ms.toInt then .error (.tooFarInFuture ms.toUInt64 now)
  else if ms.toInt + maxOffset.toNat < now.toNat then .error (.tooFarInPast ms.toUInt64 now)
  else .ok ()

theorem checkTime_eq_checkMillis {c : Certificate} {n : UInt64} (time : c.time = .ok n)
    (maxOffset now : UInt64) :
    c.checkTime maxOffset now =
      (checkMillis maxOffset now (ofUnixNanos n).millis).mapError .time := by
  have future : (now.toNat + maxOffset.toNat : Int) < (ofUnixNanos n).millis.toInt ↔
      now.toNat + maxOffset.toNat < (n / 1000000).toNat := by
    rw [toInt_millis, toNat_millis]
    omega
  have past : (ofUnixNanos n).millis.toInt + maxOffset.toNat < (now.toNat : Int) ↔
      (n / 1000000).toNat + maxOffset.toNat < now.toNat := by
    rw [toInt_millis, toNat_millis]
    omega
  simp only [Certificate.checkTime, time, mapError_ok, ok_bind, checkMillis, future, past,
    toUInt64_millis]
  split
  · rfl
  · split <;> rfl

/-- Every number of nanoseconds is split into whole seconds and less than a second of nanoseconds that together
are this number, without a word that wraps around. Nor does one wrap around on the way to the milliseconds; they
are the number without its last six digits, which are the milliseconds that the verifier compares with its
clock. An earlier time has the smaller timestamp. -/
theorem split_exact (n : UInt64) :
    (0 ≤ (ofUnixNanos n).seconds.toInt ∧ (ofUnixNanos n).nanos.toNat < 1000000000 ∧
      (ofUnixNanos n).seconds.toInt * 1000000000 + (ofUnixNanos n).nanos.toNat = n.toNat) ∧
    ((n / 1000000000).toInt64.toInt = (n / 1000000000).toNat ∧
      (n % 1000000000).toUInt32.toNat = (n % 1000000000).toNat) ∧
    (((ofUnixNanos n).seconds * 1000).toInt = (ofUnixNanos n).seconds.toInt * 1000 ∧
      (ofUnixNanos n).millis.toInt =
        (ofUnixNanos n).seconds.toInt * 1000 + ((ofUnixNanos n).nanos.toNat / 1000000 : Nat) ∧
      (ofUnixNanos n).millis.toInt = (n.toNat / 1000000 : Nat)) ∧
    (∀ (c : Certificate) (maxOffset now : UInt64), c.time = .ok n →
      c.checkTime maxOffset now =
        (checkMillis maxOffset now (ofUnixNanos n).millis).mapError .time) ∧
    ∀ m, n ≤ m ↔ ofUnixNanos n ≤ ofUnixNanos m := by
  have seconds := toInt_seconds n
  refine ⟨⟨?_, split_ofUnixNanos n, unixNanos_ofUnixNanos n⟩, ⟨?_, ?_⟩,
    ⟨toInt_seconds_mul n, toInt_millis_eq_add n, toInt_millis n⟩, ?_, ?_⟩
  · rw [seconds]
    exact Int.natCast_nonneg _
  · rw [UInt64.toNat_div]
    exact seconds
  · rw [UInt64.toNat_mod]
    exact toNat_nanos n
  · intro c maxOffset now time
    exact checkTime_eq_checkMillis time maxOffset now
  · intro m
    rw [le_iff_unixNanos_le (split_ofUnixNanos n) (split_ofUnixNanos m), unixNanos_ofUnixNanos,
      unixNanos_ofUnixNanos, UInt64.le_iff_toNat_le, Int.ofNat_le]

/-- The last of all times, of which the milliseconds fit a signed word, in a certificate that is too far in the
future by one of them. -/
theorem split_exact_sample :
    (ofUnixNanos 18446744073709551615).millis.toInt = 18446744073709 ∧
    (Certificate.Sample.dated (Leb128.write 18446744073709551615)).checkTime 8 18446744073700 =
      .error (.time (.tooFarInFuture 18446744073709 18446744073700)) ∧
    ofUnixNanos 18446744073709551614 ≤ ofUnixNanos 18446744073709551615 := by
  obtain ⟨_, _, ⟨_, _, millis⟩, checked, _⟩ := split_exact 18446744073709551615
  obtain ⟨_, _, _, _, order⟩ := split_exact 18446744073709551614
  refine ⟨millis, ?_, (order _).mp (by decide)⟩
  rw [checked _ _ _ (Certificate.Sample.time_dated _)]
  rfl

end Timestamp
end Certified
