import Certified.Certificate.Encoding
import Certified.Proofs.Cbor.Entries
import Certified.Proofs.Cbor.RoundTrip
import Certified.Proofs.HashTree.Grammar

/-!
Which items are certificates. A certificate is read from a map by its three keys, its delegation from a
map by two: what stands under other keys changes nothing, and a delegation that is there is read or
refused, but never passed over.
-/

namespace Certified

open Cbor (Item)
open Cbor.Item

/-- The value under the key is a byte string inside any tags. -/
def Cbor.Item.BytesUnder (name : String) (entries : List (Item × Item)) (bytes : Bytes) : Prop :=
  ∃ value, Under name entries value ∧ value.untag = .bytes bytes

theorem bytesUnder_eq_ok_iff {name : String} {entries : List (Item × Item)} {bytes : Bytes} :
    bytesUnder name entries = .ok bytes ↔ BytesUnder name entries bytes := by
  simp only [BytesUnder, ← entry?_eq_some_iff]
  unfold bytesUnder
  cases Item.entry? name entries with
  | none => simp
  | some value =>
    simp only [Option.map_some, Option.some.injEq, exists_eq_left']
    cases value.untag <;> simp

theorem entriesOf_eq_ok_iff {what : String} {item : Item} {entries : List (Item × Item)} :
    entriesOf what item = .ok entries ↔ item.untag = .map entries := by
  unfold entriesOf
  cases item.untag <;> simp

namespace Delegation

/-- The keys that a delegation is read by. -/
def keys : List String := ["subnet_id", "certificate"]

/-- The entries of a map spell the delegation. -/
structure Spelled (entries : List (Item × Item)) (d : Delegation) : Prop where
  subnetId : BytesUnder "subnet_id" entries d.subnetId
  certificate : BytesUnder "certificate" entries d.certificate

theorem ofItem_eq_ok_iff {item : Item} {d : Delegation} :
    ofItem item = .ok d ↔ ∃ entries, item.untag = .map entries ∧ Spelled entries d := by
  simp only [ofItem, bind_eq_ok_iff, entriesOf_eq_ok_iff, bytesUnder_eq_ok_iff]
  refine exists_congr fun entries => and_congr_right fun _ => ?_
  constructor
  · rintro ⟨subnetId, id, certificate, bytes, made⟩
    cases made
    exact ⟨id, bytes⟩
  · rintro ⟨id, bytes⟩
    exact ⟨d.subnetId, id, d.certificate, bytes, rfl⟩

/-- Only the entries under the two keys are read. -/
theorem ofItem_congr {item other : Item} {entries others : List (Item × Item)}
    (map : item.untag = .map entries) (otherMap : other.untag = .map others)
    (same : only keys entries = only keys others) : ofItem item = ofItem other := by
  have subnetId : Item.entry? "subnet_id" entries = Item.entry? "subnet_id" others :=
    entry?_congr same (by decide)
  have certificate : Item.entry? "certificate" entries = Item.entry? "certificate" others :=
    entry?_congr same (by decide)
  simp only [ofItem, entriesOf, map, otherMap, ok_bind, bytesUnder, subnetId, certificate]

end Delegation

namespace Certificate

/-- The keys that a certificate is read by. -/
def keys : List String := ["tree", "signature", "delegation"]

/-- The entries of a map spell the delegation, or have none. -/
inductive DelegationSpelled (entries : List (Item × Item)) : Option Delegation → Prop where
  | direct (missing : Lacks "delegation" entries) : DelegationSpelled entries none
  | delegated {value : Item} {inner : List (Item × Item)} {d : Delegation}
    (held : Under "delegation" entries value) (map : value.untag = .map inner)
    (spelled : d.Spelled inner) : DelegationSpelled entries (some d)

/-- The entries of a map spell the certificate. -/
structure Spelled (entries : List (Item × Item)) (c : Certificate) : Prop where
  tree : ∃ value, Under "tree" entries value ∧ HashTree.ofItem value = .ok c.tree
  signature : BytesUnder "signature" entries c.signature
  delegation : DelegationSpelled entries c.delegation

/-- The tree under its key. -/
def treeUnder (entries : List (Item × Item)) : Except DecodeError HashTree :=
  match Item.entry? "tree" entries with
  | some tree => (HashTree.ofItem tree).mapError .tree
  | none => .error (.certificate (.missing "tree"))

/-- The delegation under its key, if there is one. -/
def delegationUnder (entries : List (Item × Item)) : Except DecodeError (Option Delegation) :=
  match Item.entry? "delegation" entries with
  | some delegation => ((Delegation.ofItem delegation).map some).mapError .certificate
  | none => .ok none

/-- A certificate is read from a map part by part. -/
theorem ofItem_eq (item : Item) : ofItem item = (do
    let entries ← (entriesOf "certificate" item).mapError .certificate
    let tree ← treeUnder entries
    let signature ← (bytesUnder "signature" entries).mapError .certificate
    let delegation ← delegationUnder entries
    return { tree, signature, delegation }) := by
  unfold ofItem treeUnder delegationUnder
  cases (entriesOf "certificate" item).mapError DecodeError.certificate with
  | error e => rfl
  | ok entries =>
    simp only [ok_bind]
    cases Item.entry? "tree" entries <;> cases Item.entry? "delegation" entries <;> rfl

theorem treeUnder_eq_ok_iff {entries : List (Item × Item)} {t : HashTree} :
    treeUnder entries = .ok t ↔ ∃ value, Under "tree" entries value ∧ HashTree.ofItem value = .ok t := by
  simp only [← entry?_eq_some_iff]
  unfold treeUnder
  cases Item.entry? "tree" entries with
  | none => simp
  | some value => simp [mapError_eq_ok_iff]

theorem delegationUnder_eq_ok_iff {entries : List (Item × Item)} {delegation : Option Delegation} :
    delegationUnder entries = .ok delegation ↔ DelegationSpelled entries delegation := by
  unfold delegationUnder
  constructor
  · intro h
    split at h
    · rename_i value held
      obtain ⟨d, read, rfl⟩ := map_eq_ok_iff.mp (mapError_eq_ok_iff.mp h)
      obtain ⟨inner, map, spelled⟩ := Delegation.ofItem_eq_ok_iff.mp read
      exact .delegated (entry?_eq_some_iff.mp held) map spelled
    · rename_i missing
      cases h
      exact .direct (entry?_eq_none_iff.mp missing)
  · intro h
    cases h with
    | direct missing => simp only [entry?_eq_none_iff.mpr missing]
    | delegated held map spelled =>
      have read := Delegation.ofItem_eq_ok_iff.mpr ⟨_, map, spelled⟩
      simp only [entry?_eq_some_iff.mpr held, read]
      rfl

theorem ofItem_eq_ok_iff {item : Item} {c : Certificate} :
    ofItem item = .ok c ↔ ∃ entries, item.untag = .map entries ∧ Spelled entries c := by
  simp only [ofItem_eq, bind_eq_ok_iff, mapError_eq_ok_iff, entriesOf_eq_ok_iff, treeUnder_eq_ok_iff,
    bytesUnder_eq_ok_iff, delegationUnder_eq_ok_iff]
  refine exists_congr fun entries => and_congr_right fun _ => ?_
  constructor
  · rintro ⟨tree, shown, signature, signed, delegation, delegated, made⟩
    cases made
    exact ⟨shown, signed, delegated⟩
  · rintro ⟨shown, signed, delegated⟩
    exact ⟨c.tree, shown, c.signature, signed, c.delegation, delegated, rfl⟩

/-- Items whose maps agree on what is read from them are read alike. -/
theorem ofItem_congr {item other : Item} {entries others : List (Item × Item)}
    (map : item.untag = .map entries) (otherMap : other.untag = .map others)
    (tree : Item.entry? "tree" entries = Item.entry? "tree" others)
    (signature : Item.entry? "signature" entries = Item.entry? "signature" others)
    (delegation : (Item.entry? "delegation" entries).map Delegation.ofItem =
      (Item.entry? "delegation" others).map Delegation.ofItem) : ofItem item = ofItem other := by
  have delegated : delegationUnder entries = delegationUnder others := by
    unfold delegationUnder
    cases here : Item.entry? "delegation" entries <;> cases there : Item.entry? "delegation" others <;>
      simp_all
  simp only [ofItem_eq, entriesOf, map, otherMap, mapError_ok, ok_bind, treeUnder, tree, bytesUnder,
    signature, delegated]

/-- Only the entries under the three keys are read. -/
theorem ofItem_only {item other : Item} {entries others : List (Item × Item)}
    (map : item.untag = .map entries) (otherMap : other.untag = .map others)
    (same : only keys entries = only keys others) : ofItem item = ofItem other := by
  apply ofItem_congr map otherMap
  · exact entry?_congr same (by decide)
  · exact entry?_congr same (by decide)
  · rw [entry?_congr same (by decide)]

/-- Delegations that are read alike stand for one another. -/
theorem ofItem_delegation {item other : Item} {before after : List (Item × Item)}
    {delegation otherDelegation : Item}
    (map : item.untag = .map (before ++ (.text "delegation", delegation) :: after))
    (otherMap : other.untag = .map (before ++ (.text "delegation", otherDelegation) :: after))
    (same : Delegation.ofItem delegation = Delegation.ofItem otherDelegation) :
    ofItem item = ofItem other := by
  apply ofItem_congr map otherMap
  · simp [entry?_append, entry?_cons, isText]
  · simp [entry?_append, entry?_cons, isText]
  · simp only [entry?_append, entry?_cons, isText]
    cases Item.entry? "delegation" after <;> simp [same]

/-- A delegation that is there is not passed over. -/
theorem DelegationSpelled.of_held {entries : List (Item × Item)} {value : Item}
    {delegation : Option Delegation} (h : DelegationSpelled entries delegation)
    (held : Under "delegation" entries value) :
    ∃ inner d, value.untag = .map inner ∧ delegation = some d ∧ d.Spelled inner := by
  have found := entry?_eq_some_iff.mpr held
  cases h with
  | direct missing =>
    rw [entry?_eq_none_iff.mpr missing] at found
    cases found
  | delegated held' map spelled =>
    rw [entry?_eq_some_iff.mpr held'] at found
    cases found
    exact ⟨_, _, map, rfl, spelled⟩

/-- A delegation of another form is refused. -/
theorem exists_error_of_delegation {item : Item} {entries : List (Item × Item)} {value : Item}
    (map : item.untag = .map entries) (held : Under "delegation" entries value)
    (other : ∀ inner d, value.untag = .map inner → ¬ Delegation.Spelled inner d) :
    ∃ e, ofItem item = .error e := by
  cases read : ofItem item with
  | error e => exact ⟨e, rfl⟩
  | ok c =>
    obtain ⟨entries', map', spelled⟩ := ofItem_eq_ok_iff.mp read
    obtain rfl : entries = entries' := by simpa [map] using map'
    obtain ⟨inner, d, innerMap, _, spelled⟩ := spelled.delegation.of_held held
    exact absurd spelled (other inner d innerMap)

/-- A certificate is read exactly from the maps that spell it, be it from bytes or from any item with any
tags. Entries under other keys, in the map or in that of its delegation, are not looked at, and a
delegation that is there but does not spell one is refused. -/
theorem decode_exact :
    (∀ bytes item, decodeItem bytes = .ok item → decode bytes = ofItem item ∧ ∀ c,
      (decode bytes = .ok c ↔ ∃ entries, item.untag = .map entries ∧ Spelled entries c)) ∧
    (∀ item c, ofItem item = .ok c ↔ ∃ entries, item.untag = .map entries ∧ Spelled entries c) ∧
    (∀ item other entries others, item.untag = .map entries → other.untag = .map others →
      only keys entries = only keys others → ofItem item = ofItem other) ∧
    (∀ item other before after delegation otherDelegation entries others,
      item.untag = .map (before ++ (.text "delegation", delegation) :: after) →
      other.untag = .map (before ++ (.text "delegation", otherDelegation) :: after) →
      delegation.untag = .map entries → otherDelegation.untag = .map others →
      only Delegation.keys entries = only Delegation.keys others → ofItem item = ofItem other) ∧
    (∀ item entries value, item.untag = .map entries → Under "delegation" entries value →
      (∀ inner d, value.untag = .map inner → ¬ Delegation.Spelled inner d) →
      ∃ e, ofItem item = .error e) := by
  refine ⟨?_, fun item c => ofItem_eq_ok_iff, ?_, ?_, ?_⟩
  · intro bytes item read
    have same : decode bytes = ofItem item := by rw [decode, read, ok_bind]
    refine ⟨same, fun c => ?_⟩
    rw [same]
    exact ofItem_eq_ok_iff
  · intro item other entries others map otherMap same
    exact ofItem_only map otherMap same
  · intro item other before after delegation otherDelegation entries others map otherMap inner otherInner
      same
    exact ofItem_delegation map otherMap (Delegation.ofItem_congr inner otherInner same)
  · intro item entries value map held other
    exact exists_error_of_delegation map held other

namespace Sample

def delegated : Certificate where
  tree := .leaf [1]
  signature := [2]
  delegation := some { subnetId := [3], certificate := [4] }

/-- The map of the delegation with one more entry, whose key is of another type. -/
def looseDelegation : List (Item × Item) :=
  [(.bytes [5], .array []), (.text "certificate", .bytes [4]), (.text "subnet_id", .bytes [3])]

/-- The map of the certificate with another value for its delegation, an entry that is not read, and a
signature that a later one replaces. -/
def entries (delegation : Item) : List (Item × Item) :=
  [(.text "signature", .null), (.integer 6, .null), (.text "tree", HashTree.toItem (.leaf [1])),
    (.text "delegation", delegation), (.text "signature", .bytes [2])]

theorem spelled : Spelled (entries (.map looseDelegation)) delegated where
  tree := by
    refine ⟨HashTree.toItem (.leaf [1]), ?_, rfl⟩
    exact entry?_eq_some_iff.mp (by simp [Item.entry?, entries, isText])
  signature :=
    bytesUnder_eq_ok_iff.mp (by simp [bytesUnder, Item.entry?, entries, isText, untag, delegated])
  delegation := by
    have held : Under "delegation" (entries (.map looseDelegation)) (.map looseDelegation) :=
      entry?_eq_some_iff.mp (by simp [Item.entry?, entries, isText])
    refine .delegated held rfl ⟨?_, ?_⟩
    · exact bytesUnder_eq_ok_iff.mp (by simp [bytesUnder, Item.entry?, looseDelegation, isText, untag])
    · exact bytesUnder_eq_ok_iff.mp (by simp [bytesUnder, Item.entry?, looseDelegation, isText, untag])

theorem decodeItem_encode : decodeItem (Cbor.encode (.map (entries (.map looseDelegation)))) =
    .ok (.map (entries (.map looseDelegation))) := by
  cbv

end Sample

/-- Bytes with entries that are not read, the maps without these entries in tags, and a delegation that is
null. -/
theorem decode_exact_sample :
    decodeItem (Cbor.encode (.map (Sample.entries (.map Sample.looseDelegation)))) =
      .ok (.map (Sample.entries (.map Sample.looseDelegation))) ∧
    decode (Cbor.encode (.map (Sample.entries (.map Sample.looseDelegation)))) =
      .ok Sample.delegated ∧
    ofItem (.map (Sample.entries .null)) =
      ofItem (.tag 7 (.map (only keys (Sample.entries .null)))) ∧
    ofItem (.map (Sample.entries (.map Sample.looseDelegation))) =
      ofItem (.tag 7 (.map
        (Sample.entries (.tag 8 (.map (only Delegation.keys Sample.looseDelegation)))))) ∧
    ∃ e, ofItem (.map (Sample.entries .null)) = .error e := by
  obtain ⟨fromBytes, _, others, otherDelegations, refused⟩ := decode_exact
  refine ⟨Sample.decodeItem_encode, ?_, ?_, ?_, ?_⟩
  · exact ((fromBytes _ _ Sample.decodeItem_encode).2 _).mpr ⟨_, rfl, Sample.spelled⟩
  · exact others _ _ _ _ rfl rfl (by simp [only])
  · exact otherDelegations _ _ [(.text "signature", .null), (.integer 6, .null), _] [_] _ _ _ _ rfl rfl
      rfl rfl (by simp [only])
  · refine refused _ _ .null rfl (entry?_eq_some_iff.mp (by simp [Item.entry?, Sample.entries, isText])) ?_
    intro inner d map
    cases map

end Certificate
end Certified
