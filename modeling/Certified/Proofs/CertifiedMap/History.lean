import Certified.CertifiedMap.Operation
import Certified.Proofs.CertifiedMap.Contents

/-!
A certified map against its history. Under each key stands what was written there last, whatever else was
done; so the tree depends on what the map holds and not on how it came there, and its root stands for it.
-/

namespace Certified.CertifiedMap

/-- What an operation leaves under a key that it is about: a value, or none. -/
def Operation.write? (key : Label) : Operation → Option (Option Bytes)
  | .insert k value => if k = key then some (some value) else none
  | .insertPayload k payload => if k = key then some (some (Digest.sha256 payload).bytes) else none
  | .erase k => if k = key then some none else none
  | .replace entries => some ((entries.reverse.find? (·.1 = key)).map (·.2))

/-- What the last operation about a key left there. Nothing stands where nothing was written. -/
def lastWritten (history : List Operation) (key : Label) : Option Bytes :=
  (history.reverse.findSome? (·.write? key)).getD none

theorem lastWritten_append_singleton (history : List Operation) (last : Operation) (key : Label) :
    lastWritten (history ++ [last]) key = (last.write? key).getD (lastWritten history key) := by
  cases h : last.write? key <;> simp [lastWritten, h]

/-- One step changes the keys that it is about and no other. -/
theorem get?_apply (m : CertifiedMap) (next : Operation) (key : Label) :
    (m.apply next).get? key = (next.write? key).getD (m.get? key) := by
  cases next with
  | insert k value =>
    rw [apply, get?_insert]
    by_cases h : k = key <;> simp [Operation.write?, h]
  | insertPayload k payload =>
    rw [apply, insertPayload, get?_insert]
    by_cases h : k = key <;> simp [Operation.write?, h]
  | erase k =>
    rw [apply, get?_erase]
    by_cases h : k = key <;> simp [Operation.write?, h]
  | replace entries => exact get?_ofList entries key

theorem get?_run (history : List Operation) (key : Label) :
    (run history).get? key = lastWritten history key := by
  induction history using List.reverseRecOn with
  | nil => rfl
  | append_singleton history last ih =>
    rw [run_append_singleton, get?_apply, ih, lastWritten_append_singleton]

theorem encard_keys (m : CertifiedMap) : {key | (m.get? key).isSome}.encard = m.size := by
  have keys : {key | (m.get? key).isSome} = ((m.entries.map (·.1)).toFinset : Set Label) := by
    ext key
    simp [isSome_get?_iff]
  rw [keys, Set.encard_coe_eq_coe_finsetCard, List.toFinset_card_of_nodup (nodup_keys m.increasing),
    List.length_map, size]

theorem isEmpty_iff {m : CertifiedMap} : m.isEmpty = true ↔ ∀ key, m.get? key = none := by
  simp only [isEmpty, List.isEmpty_iff]
  constructor
  · intro h key
    simp [get?, h]
  · intro h
    refine List.eq_nil_iff_forall_not_mem.mpr fun e mem => ?_
    exact Option.some_ne_none e.2 ((get?_eq_some_iff.mpr mem).symm.trans (h e.1))

/-- What a map holds and answers, told from a history alone. -/
structure Follows (m : CertifiedMap) (history : List Operation) : Prop where
  get : ∀ key, m.get? key = lastWritten history key
  size : {key | (lastWritten history key).isSome}.encard = m.size
  isEmpty : m.isEmpty = true ↔ ∀ key, lastWritten history key = none
  insert : ∀ key value, m.answer? (.insert key value) = lastWritten history key
  insertPayload : ∀ key payload,
    m.answer? (.insertPayload key payload) = some (Digest.sha256 payload).bytes
  erase : ∀ key, m.answer? (.erase key) = lastWritten history key

theorem follows_run (history : List Operation) : Follows (run history) history where
  get := get?_run history
  size := by simpa only [get?_run] using encard_keys (run history)
  isEmpty := by simpa only [get?_run] using isEmpty_iff (m := run history)
  insert key _ := get?_run history key
  insertPayload _ _ := rfl
  erase key := get?_run history key

theorem run_eq_iff {history history' : List Operation} :
    run history = run history' ↔ ∀ key, lastWritten history key = lastWritten history' key := by
  constructor
  · intro h key
    rw [← get?_run, h, get?_run]
  · intro h
    refine ext_get? fun key => ?_
    rw [get?_run, h, get?_run]

/-- The layout keeps the entries apart, whatever the number of them. -/
theorem eq_of_tree_eq {m m' : CertifiedMap} (h : m.tree = m'.tree) : m = m' := by
  refine ext_get? fun key => Option.ext fun value => ?_
  rw [← Answer.ofOption_eq_found, ← Answer.ofOption_eq_found, ← lookup_tree, ← lookup_tree, h]

/-- Two maps with one root hold the same, unless two of the byte strings hashed for them collide. -/
theorem eq_or_collision {m m' : CertifiedMap} (h : m.root = m'.root) :
    m = m' ∨ Collision (m.tree.messages ++ m'.tree.messages) := by
  by_cases collision : Collision (m.tree.messages ++ m'.tree.messages)
  · exact .inr collision
  · have agree : HashTree.Agree m.tree m'.tree := HashTree.CollisionFree.agree collision h
    exact .inl (eq_of_tree_eq (agree.eq_of_complete m.complete_tree m'.complete_tree))

/-- After any history a map holds and answers what was written last. Two histories with the same last
writes have one tree, one root and the same witnesses, and two with one root have the same last writes,
unless two of the byte strings hashed for their trees collide. -/
theorem root_stands_for_contents (history history' : List Operation) :
    Follows (run history) history ∧
    ((∀ key, lastWritten history key = lastWritten history' key) →
      (run history).tree = (run history').tree ∧ (run history).root = (run history').root ∧
      ∀ key, (run history).witness? key = (run history').witness? key ∧
        (run history).witnessBytes? key = (run history').witnessBytes? key) ∧
    ((run history).root = (run history').root →
      (∀ key, lastWritten history key = lastWritten history' key) ∨
        Collision ((run history).tree.messages ++ (run history').tree.messages)) := by
  refine ⟨follows_run history, ?_, ?_⟩
  · intro same
    rw [run_eq_iff.mpr same]
    exact ⟨rfl, rfl, fun key => ⟨rfl, rfl⟩⟩
  · intro h
    exact (eq_or_collision h).imp_left run_eq_iff.mp

namespace Sample

/-- Three keys are written and one of them is taken out. -/
def written : List Operation :=
  [.insert [1] [5], .insertPayload [2] [6], .erase [1], .insert [3] [7]]

/-- The same entries, read from a list that has one of the keys twice. -/
def collected : List Operation :=
  [.insert [4] [], .replace [([3], [8]), ([3], [7])], .insertPayload [2] [6]]

theorem lastWritten_eq (key : Label) : lastWritten written key = lastWritten collected key := by
  by_cases two : [2] = key
  · subst two
    rfl
  by_cases three : [3] = key
  · subst three
    rfl
  by_cases one : [1] = key
  · subst one
    rfl
  simp [lastWritten, written, collected, Operation.write?, one, two, three]

end Sample

theorem root_stands_for_contents_sample :
    (run Sample.written).get? [3] = some [7] ∧ (run Sample.written).get? [1] = none ∧
      (run Sample.written).root = (run Sample.collected).root ∧
      (run Sample.written).witness? [3] = (run Sample.collected).witness? [3] := by
  obtain ⟨follows, alike, -⟩ := root_stands_for_contents Sample.written Sample.collected
  obtain ⟨-, root, shown⟩ := alike Sample.lastWritten_eq
  exact ⟨follows.get [3], follows.get [1], root, (shown [3]).1⟩

end Certified.CertifiedMap
