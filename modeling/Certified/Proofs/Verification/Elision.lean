import Mathlib
import Certified.Proofs.HashTree.Pruning
import Certified.Proofs.Verification.Delegation

/-!
Delegations of which parts are elided. Pruning keeps the root, so the root key's signature stays good;
whether a canister outside the subnet's ranges is still refused hangs on the ranges being shown.
-/

namespace Certified.Delegation

open HashTree

/-- The second delegation is the first with parts of its certificate's tree replaced by their digests. -/
structure Elision (d d' : Delegation) (c c' : Certificate) : Prop where
  subnetId : d'.subnetId = d.subnetId
  decoded : Certificate.decode d.certificate = .ok c
  elided : Certificate.decode d'.certificate = .ok c'
  signature : c'.signature = c.signature
  pruning : Pruning c.tree c'.tree

variable {check : SignatureCheck} {rootKey : Bytes} {canister : Principal} {d d' : Delegation}
  {c c' : Certificate}

/-- The signature over the root stays good. -/
theorem Elision.genuine (e : Elision d d' c c') (genuine : Genuine check rootKey d c)
    (direct : c'.delegation = none) : Genuine check rootKey d' c' where
  decoded := e.elided
  direct := direct
  signed := by
    rw [e.pruning.root_eq, e.signature]
    exact genuine.signed

/-- A refusal for the ranges comes from a genuine certificate that shows them. -/
theorem outside_of_subnetKey (decoded : Certificate.decode d.certificate = .ok c)
    (refused : d.subnetKey check rootKey canister = .error (.outOfRange canister)) :
    Genuine check rootKey d c ∧ ∃ value, c.tree.lookup (rangesPath d.subnetId) = .found value ∧
      ∃ ranges, CanisterRange.decodeAll value = .ok ranges ∧
        ¬ CanisterRange.Admit ranges canister.bytes := by
  cases subnetKey_eq_error_iff.mp refused with
  | @outside c₀ value ranges genuine found readable outside =>
    obtain rfl : c = c₀ := Except.ok.inj (decoded.symm.trans genuine.decoded)
    exact ⟨genuine, value, found, ranges, readable, outside⟩

/-- The ranges of the elided certificate are hidden or still those that do not hold the canister. -/
theorem Elision.rangesAdmit_iff (e : Elision d d' c c') (distinct : c.tree.DistinctLabels)
    {value : Bytes} {ranges : List CanisterRange}
    (found : c.tree.lookup (rangesPath d.subnetId) = .found value)
    (readable : CanisterRange.decodeAll value = .ok ranges)
    (outside : ¬ CanisterRange.Admit ranges canister.bytes) :
    RangesAdmit c'.tree d'.subnetId canister ↔
      c'.tree.lookup (rangesPath d.subnetId) = .unknown := by
  rw [e.subnetId]
  constructor
  · intro admitted
    rcases e.pruning.lookup_eq distinct (rangesPath d.subnetId) with hidden | shown
    · exact hidden
    · obtain ⟨ranges', readable', inside⟩ := admitted value (shown.trans found)
      obtain rfl : ranges' = ranges := Except.ok.inj (readable'.symm.trans readable)
      exact absurd inside outside
  · intro hidden value' found'
    rw [hidden] at found'
    cases found'

/-- A canister outside the ranges is authorized by an elided delegation exactly where the ranges are hidden
and the key is shown. -/
theorem elided_key_iff (e : Elision d d' c c') (distinct : c.tree.DistinctLabels)
    (refused : d.subnetKey check rootKey canister = .error (.outOfRange canister)) (key : Bytes) :
    d'.subnetKey check rootKey canister = .ok key ↔
      c'.delegation = none ∧ c'.tree.lookup (rangesPath d.subnetId) = .unknown ∧
        c'.tree.lookup (keyPath d.subnetId) = .found key := by
  obtain ⟨genuine, value, found, ranges, readable, outside⟩ := outside_of_subnetKey e.decoded refused
  have admitted := e.rangesAdmit_iff distinct found readable outside
  rw [subnetKey_eq_ok_iff]
  constructor
  · rintro ⟨c₀, authorized⟩
    obtain rfl : c' = c₀ := Except.ok.inj (e.elided.symm.trans authorized.decoded)
    exact ⟨authorized.direct, admitted.mp authorized.admitted, e.subnetId ▸ authorized.shown⟩
  · rintro ⟨direct, hidden, shown⟩
    exact ⟨c', e.genuine genuine direct, admitted.mpr hidden, e.subnetId ▸ shown⟩

namespace Sample

def ranges : HashTree :=
  .labeled (Bytes.ofText "canister_ranges") (.leaf (CanisterRange.encodeAll [⟨[5], [9]⟩]))

/-- The root key vouches for the key `[7]` of the subnet `[1]`. -/
def certificate (ranges : HashTree) : Certificate where
  tree := .labeled (Bytes.ofText "subnet")
    (.labeled [1] (.fork ranges (.labeled (Bytes.ofText "public_key") (.leaf [7]))))
  signature := []
  delegation := none

def delegation (ranges : HashTree) : Delegation where
  subnetId := [1]
  certificate := (certificate ranges).encode

theorem elision : Elision (delegation ranges) (delegation ranges.prune) (certificate ranges)
    (certificate ranges.prune) where
  subnetId := rfl
  decoded := by decide +kernel
  elided := by decide +kernel
  signature := rfl
  pruning := .labeled _ (.labeled _ (.fork (.here ranges) (.refl _)))

theorem distinct : (certificate ranges).tree.DistinctLabels := by
  decide

theorem refused : (delegation ranges).subnetKey .none [] Principal.management =
    .error (.outOfRange Principal.management) := by
  decide +kernel

theorem authorized : (delegation ranges.prune).subnetKey .none [] Principal.management = .ok [7] := by
  decide +kernel

end Sample

/-- The hidden ranges of a delegation do not keep out the canister that the shown ones did. -/
theorem elided_key_iff_sample :
    (Sample.certificate Sample.ranges).tree.DistinctLabels ∧
    (Sample.delegation Sample.ranges).subnetKey .none [] Principal.management =
      .error (.outOfRange Principal.management) ∧
    ((Sample.delegation Sample.ranges.prune).subnetKey .none [] Principal.management = .ok [7] ↔
      (Sample.certificate Sample.ranges.prune).delegation = none ∧
        (Sample.certificate Sample.ranges.prune).tree.lookup (rangesPath [1]) = .unknown ∧
        (Sample.certificate Sample.ranges.prune).tree.lookup (keyPath [1]) = .found [7]) :=
  ⟨Sample.distinct, Sample.refused,
    elided_key_iff Sample.elision Sample.distinct Sample.refused [7]⟩

/-- Eliding parts of a delegation can authorize a canister that it refused. -/
theorem exists_elision_authorizes :
    ¬ ∀ (check : SignatureCheck) (rootKey : Bytes) (canister : Principal) (d d' : Delegation)
      (c c' : Certificate), Elision d d' c c' → c.tree.DistinctLabels →
      d.subnetKey check rootKey canister = .error (.outOfRange canister) →
      ∀ key, d'.subnetKey check rootKey canister ≠ .ok key := by
  intro safe
  exact safe .none [] Principal.management _ _ _ _ Sample.elision Sample.distinct Sample.refused [7]
    Sample.authorized

end Certified.Delegation
