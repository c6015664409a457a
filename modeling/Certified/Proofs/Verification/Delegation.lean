import Certified.Verification.Delegation
import Certified.Proofs.Steps

/-!
What a delegation must show so that it authorizes a key for a canister, and why it does not.
-/

namespace Certified

/-- Some of the ranges holds the id, ends included. -/
def CanisterRange.Admit (ranges : List CanisterRange) (id : Bytes) : Prop :=
  ∃ r ∈ ranges, r.first ≤ id ∧ id ≤ r.last

instance (ranges : List CanisterRange) (id : Bytes) : Decidable (CanisterRange.Admit ranges id) :=
  inferInstanceAs (Decidable (∃ r ∈ ranges, r.first ≤ id ∧ id ≤ r.last))

theorem CanisterRange.any_contains_iff {ranges : List CanisterRange} {id : Bytes} :
    (ranges.any fun r => r.contains id) = true ↔ Admit ranges id := by
  simp [Admit, contains]

namespace Delegation

/-- The delegation spells a certificate that is not itself delegated and that the root key signed. -/
structure Genuine (check : SignatureCheck) (rootKey : Bytes) (d : Delegation) (c : Certificate) :
    Prop where
  decoded : Certificate.decode d.certificate = .ok c
  direct : c.delegation = none
  signed : check (domainSeparator "ic-state-root" ++ c.tree.root.bytes) c.signature rootKey = .ok ()

/-- The subnet's ranges in the tree can be read and admit the canister, if they are found. -/
def RangesAdmit (tree : HashTree) (subnetId : Bytes) (canister : Principal) : Prop :=
  ∀ value, tree.lookup (rangesPath subnetId) = .found value →
    ∃ ranges, CanisterRange.decodeAll value = .ok ranges ∧ CanisterRange.Admit ranges canister.bytes

/-- The key that the delegation authorizes for the canister, and the certificate that says so. -/
structure Authorizes (check : SignatureCheck) (rootKey : Bytes) (canister : Principal)
    (d : Delegation) (c : Certificate) (key : Bytes) : Prop extends Genuine check rootKey d c where
  admitted : RangesAdmit c.tree d.subnetId canister
  shown : c.tree.lookup (keyPath d.subnetId) = .found key

/-- Why a delegation authorizes no key for the canister: the first check that fails. -/
inductive Refused (check : SignatureCheck) (rootKey : Bytes) (canister : Principal)
    (d : Delegation) : DelegationError → Prop where
  | undecodable {cause : DecodeError} (decoded : Certificate.decode d.certificate = .error cause) :
    Refused check rootKey canister d (.malformed cause)
  | nested {c : Certificate} (decoded : Certificate.decode d.certificate = .ok c)
    (delegated : c.delegation ≠ none) : Refused check rootKey canister d .nested
  | unsigned {c : Certificate} {cause : SignatureError}
    (decoded : Certificate.decode d.certificate = .ok c) (direct : c.delegation = none)
    (signed : check (domainSeparator "ic-state-root" ++ c.tree.root.bytes) c.signature rootKey =
      .error cause) : Refused check rootKey canister d (.signature cause)
  | unreadable {c : Certificate} {value : Bytes} {cause : DecodeError}
    (genuine : Genuine check rootKey d c)
    (found : c.tree.lookup (rangesPath d.subnetId) = .found value)
    (decoded : CanisterRange.decodeAll value = .error cause) :
    Refused check rootKey canister d (.malformed cause)
  | outside {c : Certificate} {value : Bytes} {ranges : List CanisterRange}
    (genuine : Genuine check rootKey d c)
    (found : c.tree.lookup (rangesPath d.subnetId) = .found value)
    (decoded : CanisterRange.decodeAll value = .ok ranges)
    (outside : ¬ CanisterRange.Admit ranges canister.bytes) :
    Refused check rootKey canister d (.outOfRange canister)
  | noKey {c : Certificate} (genuine : Genuine check rootKey d c)
    (admitted : RangesAdmit c.tree d.subnetId canister)
    (hidden : ∀ key, c.tree.lookup (keyPath d.subnetId) ≠ .found key) :
    Refused check rootKey canister d .missingKey

variable {check : SignatureCheck} {rootKey : Bytes} {canister : Principal} {d : Delegation}

theorem checkRanges_eq_ok_iff {c : Certificate} {subnetId : Bytes} :
    checkRanges c subnetId canister = .ok () ↔ RangesAdmit c.tree subnetId canister := by
  unfold checkRanges RangesAdmit
  cases c.tree.lookup (rangesPath subnetId) with
  | found value =>
    simp only [bind_eq_ok_iff, mapError_eq_ok_iff, CanisterRange.any_contains_iff]
    constructor
    · rintro ⟨ranges, decoded, h⟩ value' found
      cases found
      split at h
      · rename_i inside
        exact ⟨ranges, decoded, inside⟩
      · cases h
    · intro h
      obtain ⟨ranges, decoded, inside⟩ := h value rfl
      exact ⟨ranges, decoded, if_pos inside⟩
  | absent => simp
  | unknown => simp
  | error => simp

theorem checkRanges_eq_error_iff {c : Certificate} {subnetId : Bytes} {e : DelegationError} :
    checkRanges c subnetId canister = .error e ↔
      ∃ value, c.tree.lookup (rangesPath subnetId) = .found value ∧
        ((∃ cause, CanisterRange.decodeAll value = .error cause ∧ .malformed cause = e) ∨
          ∃ ranges, CanisterRange.decodeAll value = .ok ranges ∧
            ¬ CanisterRange.Admit ranges canister.bytes ∧ .outOfRange canister = e) := by
  unfold checkRanges
  cases c.tree.lookup (rangesPath subnetId) with
  | found value =>
    simp only [bind_eq_error_iff, mapError_eq_ok_iff, mapError_eq_error_iff,
      CanisterRange.any_contains_iff, Answer.found.injEq, exists_eq_left']
    refine or_congr_right (exists_congr fun ranges => and_congr_right fun _ => ?_)
    by_cases inside : CanisterRange.Admit ranges canister.bytes
    · simp [inside]
    · simp [inside]
  | absent => simp
  | unknown => simp
  | error => simp

/-- The checks in their order: a genuine certificate, its ranges, its key. -/
theorem subnetKey_eq_ok_iff {key : Bytes} :
    d.subnetKey check rootKey canister = .ok key ↔ ∃ c, Authorizes check rootKey canister d c key := by
  simp only [subnetKey, bind_eq_ok_iff, mapError_eq_ok_iff]
  refine exists_congr fun c => ?_
  constructor
  · rintro ⟨decoded, h⟩
    by_cases nested : c.delegation.isSome = true
    · rw [if_pos nested] at h
      cases h
    · rw [if_neg nested] at h
      simp only [bind_eq_ok_iff, mapError_eq_ok_iff, exists_unit, checkRanges_eq_ok_iff] at h
      obtain ⟨signed, admitted, h⟩ := h
      split at h
      · rename_i shown
        cases h
        exact ⟨⟨decoded, by simpa using nested, signed⟩, admitted, shown⟩
      · cases h
  · rintro ⟨⟨decoded, direct, signed⟩, admitted, shown⟩
    refine ⟨decoded, ?_⟩
    rw [direct, if_neg (by simp)]
    simp only [bind_eq_ok_iff, mapError_eq_ok_iff, exists_unit, checkRanges_eq_ok_iff]
    exact ⟨signed, admitted, by simp [shown]⟩

theorem refused_of_subnetKey {e : DelegationError}
    (h : d.subnetKey check rootKey canister = .error e) : Refused check rootKey canister d e := by
  simp only [subnetKey, bind_eq_error_iff, mapError_eq_ok_iff, mapError_eq_error_iff] at h
  rcases h with ⟨cause, decoded, rfl⟩ | ⟨c, decoded, h⟩
  · exact .undecodable decoded
  by_cases nested : c.delegation.isSome = true
  · rw [if_pos nested] at h
    cases h
    exact .nested decoded (Option.isSome_iff_ne_none.mp nested)
  · rw [if_neg nested] at h
    have direct : c.delegation = none := by simpa using nested
    simp only [bind_eq_error_iff, mapError_eq_ok_iff, mapError_eq_error_iff, exists_unit,
      checkRanges_eq_ok_iff, checkRanges_eq_error_iff] at h
    rcases h with ⟨cause, signed, rfl⟩ | ⟨signed, h⟩
    · exact .unsigned decoded direct signed
    rcases h with ⟨value, found, h⟩ | ⟨admitted, h⟩
    · rcases h with ⟨cause, unreadable, rfl⟩ | ⟨ranges, readable, outside, rfl⟩
      · exact .unreadable ⟨decoded, direct, signed⟩ found unreadable
      · exact .outside ⟨decoded, direct, signed⟩ found readable outside
    · split at h
      · cases h
      · rename_i hidden
        cases h
        exact .noKey ⟨decoded, direct, signed⟩ admitted hidden

theorem Genuine.checked {c : Certificate} (genuine : Genuine check rootKey d c) :
    check (signedMessage c.tree.root) c.signature rootKey = .ok () :=
  genuine.signed

theorem subnetKey_of_refused {e : DelegationError} (h : Refused check rootKey canister d e) :
    d.subnetKey check rootKey canister = .error e := by
  cases h with
  | undecodable decoded => simp [subnetKey, decoded]
  | nested decoded delegated =>
    have nested := Option.isSome_iff_ne_none.mpr delegated
    simp [subnetKey, decoded, nested]
  | @unsigned c cause decoded direct signed =>
    have unsigned : check (signedMessage c.tree.root) c.signature rootKey = .error cause := signed
    simp [subnetKey, decoded, direct, unsigned]
  | @unreadable c value cause genuine found unreadable =>
    have ranges : checkRanges c d.subnetId canister = .error (.malformed cause) :=
      checkRanges_eq_error_iff.mpr ⟨value, found, .inl ⟨cause, unreadable, rfl⟩⟩
    simp [subnetKey, genuine.decoded, genuine.direct, genuine.checked, ranges]
  | @outside c value ranges genuine found readable outside =>
    have ranges : checkRanges c d.subnetId canister = .error (.outOfRange canister) :=
      checkRanges_eq_error_iff.mpr ⟨value, found, .inr ⟨ranges, readable, outside, rfl⟩⟩
    simp [subnetKey, genuine.decoded, genuine.direct, genuine.checked, ranges]
  | @noKey c genuine admitted hidden =>
    have ranges : checkRanges c d.subnetId canister = .ok () := checkRanges_eq_ok_iff.mpr admitted
    simp only [subnetKey, genuine.decoded, genuine.direct, genuine.checked, ranges, mapError_ok, ok_bind]
    split
    · contradiction
    · rfl

theorem subnetKey_eq_error_iff {e : DelegationError} :
    d.subnetKey check rootKey canister = .error e ↔ Refused check rootKey canister d e :=
  ⟨refused_of_subnetKey, subnetKey_of_refused⟩

end Delegation
end Certified
