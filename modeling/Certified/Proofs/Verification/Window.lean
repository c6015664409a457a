import Certified.Verification.Basic
import Certified.Proofs.Steps

/-!
When a certificate's time is near enough to the clock, and why it is not.
-/

namespace Certified

/-- The time in nanoseconds, cut to milliseconds, is within the offset of the clock. The distance is
taken over the integers. -/
def Timely (maxOffset now nanos : UInt64) : Prop :=
  ((nanos.toNat / 1000000 : Nat) - (now.toNat : Int)).natAbs ≤ maxOffset.toNat

instance (maxOffset now nanos : UInt64) : Decidable (Timely maxOffset now nanos) :=
  inferInstanceAs (Decidable (_ ≤ _))

theorem toNat_millis (nanos : UInt64) : (nanos / 1000000).toNat = nanos.toNat / 1000000 := by
  rw [UInt64.toNat_div]
  rfl

theorem timely_iff {maxOffset now nanos : UInt64} :
    Timely maxOffset now nanos ↔
      (nanos / 1000000).toNat ≤ now.toNat + maxOffset.toNat ∧
        now.toNat ≤ (nanos / 1000000).toNat + maxOffset.toNat := by
  rw [toNat_millis]
  unfold Timely
  omega

namespace Certificate

variable {maxOffset now : UInt64} {c : Certificate}

/-- Why the time of a certificate is refused. -/
inductive Untimely (maxOffset now : UInt64) (c : Certificate) : VerificationError → Prop where
  | unreadable {cause : DecodeError} (time : c.time = .error cause) :
    Untimely maxOffset now c (.decode cause)
  | future {nanos : UInt64} (time : c.time = .ok nanos)
    (late : now.toNat + maxOffset.toNat < nanos.toNat / 1000000) :
    Untimely maxOffset now c (.time (.tooFarInFuture (nanos / 1000000) now))
  | past {nanos : UInt64} (time : c.time = .ok nanos)
    (early : nanos.toNat / 1000000 + maxOffset.toNat < now.toNat) :
    Untimely maxOffset now c (.time (.tooFarInPast (nanos / 1000000) now))

theorem checkTime_eq_ok_iff :
    c.checkTime maxOffset now = .ok () ↔ ∃ nanos, c.time = .ok nanos ∧ Timely maxOffset now nanos := by
  simp only [checkTime, bind_eq_ok_iff, mapError_eq_ok_iff, timely_iff]
  refine exists_congr fun nanos => and_congr_right fun _ => ?_
  by_cases future : now.toNat + maxOffset.toNat < (nanos / 1000000).toNat
  · rw [if_pos future]
    simp only [reduceCtorEq, false_iff]
    omega
  · rw [if_neg future]
    by_cases past : (nanos / 1000000).toNat + maxOffset.toNat < now.toNat
    · rw [if_pos past]
      simp only [reduceCtorEq, false_iff]
      omega
    · rw [if_neg past]
      simp only [pure_eq_ok, true_iff]
      omega

theorem checkTime_eq_error_iff {e : VerificationError} :
    c.checkTime maxOffset now = .error e ↔ Untimely maxOffset now c e := by
  constructor
  · intro h
    simp only [checkTime, bind_eq_error_iff, mapError_eq_ok_iff, mapError_eq_error_iff] at h
    rcases h with ⟨cause, time, rfl⟩ | ⟨nanos, time, h⟩
    · exact .unreadable time
    · split at h
      · rename_i late
        cases h
        exact .future time (toNat_millis nanos ▸ late)
      · split at h
        · rename_i early
          cases h
          exact .past time (toNat_millis nanos ▸ early)
        · cases h
  · intro h
    cases h with
    | unreadable time => simp [checkTime, time]
    | future time late => simp [checkTime, time, late]
    | @past nanos time early =>
      rw [← toNat_millis] at early
      have notFuture : ¬ now.toNat + maxOffset.toNat < (nanos / 1000000).toNat := by omega
      simp only [checkTime, time, mapError_ok, ok_bind, if_neg notFuture, if_pos early]

end Certificate
end Certified
