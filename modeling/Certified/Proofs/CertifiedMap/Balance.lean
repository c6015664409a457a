import Certified.HashTree.Parts
import Certified.Proofs.CertifiedMap.Disclosure

/-!
How the entries of a certified map lie in its tree. Halving leads to every entry by turns of its own, of which
there are as many as the logarithm of the number of entries, rounded down or up; and the witness of a key is the
tree with all hidden beside these turns.
-/

namespace Certified

open HashTree

/-- What a pruning shows at a place is a pruning of what stands there. -/
theorem HashTree.Pruning.exists_partAt? {t p part : HashTree} {turns : List Bool} (h : Pruning t p)
    (shown : p.partAt? turns = some part) :
    ∃ whole, t.partAt? turns = some whole ∧ Pruning whole part := by
  induction turns generalizing t p with
  | nil =>
    obtain rfl : p = part := by simpa using shown
    exact ⟨t, partAt?_nil t, h⟩
  | cons turn turns ih =>
    cases h with
    | here => simp at shown
    | fork left right => cases turn with
      | false => exact ih left shown
      | true => exact ih right shown
    | labeled label below => simp at shown
    | empty | leaf => cases turn <;> cases shown

namespace CertifiedMap

variable {entry : Entry} {key : Label} {value : Bytes} {entries : List Entry} {turns other : List Bool}

/-- The part of the tree that holds an entry. -/
def node (entry : Entry) : HashTree :=
  .labeled entry.1 (.leaf entry.2)

/-- Halving the entries leads to the entry by these turns, false to the left and true to the right. -/
inductive LeadsTo (entry : Entry) : List Entry → List Bool → Prop where
  | here : LeadsTo entry [entry] []
  | left {entries : List Entry} {turns : List Bool} (several : 2 ≤ entries.length)
    (below : LeadsTo entry (entries.take (entries.length / 2)) turns) :
    LeadsTo entry entries (false :: turns)
  | right {entries : List Entry} {turns : List Bool} (several : 2 ≤ entries.length)
    (below : LeadsTo entry (entries.drop (entries.length / 2)) turns) :
    LeadsTo entry entries (true :: turns)

theorem LeadsTo.mem (h : LeadsTo entry entries turns) : entry ∈ entries := by
  induction h with
  | here => exact List.mem_singleton_self entry
  | left _ _ ih => exact List.mem_of_mem_take ih
  | right _ _ ih => exact List.mem_of_mem_drop ih

theorem exists_leadsTo (mem : entry ∈ entries) : ∃ turns, LeadsTo entry entries turns := by
  fun_induction layout entries with
  | case1 => cases mem
  | case2 k v =>
    obtain rfl := List.mem_singleton.mp mem
    exact ⟨[], .here⟩
  | case3 first second rest entries ihl ihr =>
    have several : 2 ≤ entries.length := by simp [entries]
    change entry ∈ entries at mem
    rw [← List.take_append_drop (entries.length / 2) entries] at mem
    rcases List.mem_append.mp mem with mem | mem
    · obtain ⟨turns, below⟩ := ihl mem
      exact ⟨false :: turns, .left several below⟩
    · obtain ⟨turns, below⟩ := ihr mem
      exact ⟨true :: turns, .right several below⟩

/-- As long as more than a power of two is left, there is a turn more to take. -/
theorem LeadsTo.le_length (h : LeadsTo entry entries turns) {k : Nat} (many : 2 ^ k ≤ entries.length) :
    k ≤ turns.length := by
  induction h generalizing k with
  | here =>
    have none : 2 ^ k ≤ 2 ^ 0 := many
    exact (Nat.pow_le_pow_iff_right (by omega)).mp none
  | left several below ih | right several below ih =>
    cases k with
    | zero => exact Nat.zero_le _
    | succ k =>
      rw [Nat.pow_succ] at many
      refine Nat.succ_le_succ (ih ?_)
      simp only [List.length_take, List.length_drop]
      omega

theorem LeadsTo.length_le (h : LeadsTo entry entries turns) {k : Nat} (few : entries.length ≤ 2 ^ k) :
    turns.length ≤ k := by
  induction h generalizing k with
  | here => exact Nat.zero_le k
  | left several below ih | right several below ih =>
    cases k with
    | zero => omega
    | succ k =>
      rw [Nat.pow_succ] at few
      refine Nat.succ_le_succ (ih ?_)
      simp only [List.length_take, List.length_drop]
      omega

/-- There are as many turns as the logarithm of the number of entries, rounded down or up. -/
theorem LeadsTo.length_eq (h : LeadsTo entry entries turns) :
    turns.length = Nat.log 2 entries.length ∨ turns.length = Nat.clog 2 entries.length := by
  have some : entries.length ≠ 0 := (List.length_pos_of_mem h.mem).ne'
  have low := h.le_length (Nat.pow_log_le_self 2 some)
  have high := h.length_le (Nat.le_pow_clog (by omega) entries.length)
  have near : Nat.clog 2 entries.length ≤ Nat.log 2 entries.length + 1 :=
    Nat.clog_le_of_le_pow (Nat.lt_pow_succ_log_self (by omega) entries.length).le
  omega

theorem layout_of_several (several : 2 ≤ entries.length) :
    layout entries = .fork (layout (entries.take (entries.length / 2)))
      (layout (entries.drop (entries.length / 2))) := by
  match entries, several with
  | first :: second :: rest, _ => rw [layout]

theorem reveal_of_several (held : entries.any (·.1 = key) = true) (several : 2 ≤ entries.length) :
    reveal key entries = .fork (reveal key (entries.take (entries.length / 2)))
      (reveal key (entries.drop (entries.length / 2))) := by
  match entries, several with
  | first :: second :: rest, _ => rw [reveal, if_pos held]

theorem reveal_of_not_held (hidden : ∀ e ∈ entries, e.1 ≠ key) :
    reveal key entries = (layout entries).prune := by
  have none : ¬ entries.any (·.1 = key) = true := by
    intro held
    obtain ⟨e, mem, same⟩ := List.any_eq_true.mp held
    exact hidden e mem (by simpa using same)
  unfold reveal
  rw [if_neg none]

theorem any_of_mem (mem : (key, value) ∈ entries) : entries.any (·.1 = key) = true :=
  List.any_eq_true.mpr ⟨(key, value), mem, by simp⟩

theorem layout_singleton (entry : Entry) : layout [entry] = node entry := by
  obtain ⟨k, v⟩ := entry
  rw [layout]
  rfl

theorem leadsTo_of_partAt? (entries : List Entry) :
    ∀ turns, (layout entries).partAt? turns = some (node entry) → LeadsTo entry entries turns := by
  fun_induction layout entries with
  | case1 =>
    intro turns h
    cases turns with
    | nil => simp [node] at h
    | cons turn turns => cases turn <;> cases h
  | case2 k v =>
    intro turns h
    cases turns with
    | nil =>
      obtain rfl : (k, v) = entry := by simpa [node, Prod.ext_iff] using h
      exact .here
    | cons turn turns => simp at h
  | case3 first second rest entries ihl ihr =>
    intro turns h
    have several : 2 ≤ entries.length := by simp [entries]
    cases turns with
    | nil => simp [node] at h
    | cons turn turns => cases turn with
      | false => exact .left several (ihl turns h)
      | true => exact .right several (ihr turns h)

/-- The node of an entry stands where halving leads to the entry. -/
theorem partAt?_layout_iff :
    (layout entries).partAt? turns = some (node entry) ↔ LeadsTo entry entries turns := by
  constructor
  · intro h
    exact leadsTo_of_partAt? entries turns h
  · intro h
    induction h with
    | here =>
      rw [layout_singleton]
      exact partAt?_nil _
    | left several below ih => rw [layout_of_several several, partAt?_left, ih]
    | right several below ih => rw [layout_of_several several, partAt?_right, ih]

/-- One half of sorted entries shares no key with the other. -/
theorem ne_of_halves (increasing : Increasing entries) {first last : Entry} {n : Nat}
    (low : first ∈ entries.take n) (high : last ∈ entries.drop n) : first.1 ≠ last.1 := by
  rw [← List.take_append_drop n entries] at increasing
  have lt := (List.pairwise_append.mp increasing).2.2 first low last high
  intro same
  exact List.lt_irrefl _ (same ▸ lt)

theorem LeadsTo.unique (increasing : Increasing entries) (h : LeadsTo entry entries turns)
    (h' : LeadsTo entry entries other) : turns = other := by
  induction h generalizing other with
  | here => cases h' with
    | here => rfl
    | left several | right several => simp at several
  | left several below ih => cases h' with
    | here => simp at several
    | left _ below' => rw [ih (increasing.sublist (List.take_sublist _ _)) below']
    | right _ below' => exact absurd rfl (ne_of_halves increasing below.mem below'.mem)
  | right several below ih => cases h' with
    | here => simp at several
    | left _ below' => exact absurd rfl (ne_of_halves increasing below'.mem below.mem)
    | right _ below' => rw [ih (increasing.sublist (List.drop_sublist _ _)) below']

/-- What is shown of the tree shows the node of the entry at its place, and one hidden part beside each
turn. -/
theorem LeadsTo.reveal_spec (increasing : Increasing entries) (h : LeadsTo (key, value) entries turns) :
    (reveal key entries).partAt? turns = some (node (key, value)) ∧
      (reveal key entries).parts.countP isPruned = turns.length := by
  have held := any_of_mem h.mem
  induction h with
  | here =>
    have shown : reveal key [(key, value)] = node (key, value) := by
      unfold reveal
      rw [if_pos held]
      exact layout_singleton _
    rw [shown]
    exact ⟨partAt?_nil _, rfl⟩
  | @left entries turns several below ih =>
    have hidden : ∀ e ∈ entries.drop (entries.length / 2), e.1 ≠ key :=
      fun e mem => (ne_of_halves increasing below.mem mem).symm
    obtain ⟨shown, count⟩ := ih (increasing.sublist (List.take_sublist _ _)) (any_of_mem below.mem)
    rw [reveal_of_several held several, reveal_of_not_held hidden]
    refine ⟨shown, ?_⟩
    simp [count]
  | @right entries turns several below ih =>
    have hidden : ∀ e ∈ entries.take (entries.length / 2), e.1 ≠ key :=
      fun e mem => ne_of_halves increasing mem below.mem
    obtain ⟨shown, count⟩ := ih (increasing.sublist (List.drop_sublist _ _)) (any_of_mem below.mem)
    rw [reveal_of_several held several, reveal_of_not_held hidden]
    refine ⟨shown, ?_⟩
    simp [List.countP_cons, count]

theorem node_mem_parts_layout_iff : node entry ∈ (layout entries).parts ↔ entry ∈ entries := by
  fun_induction layout entries with
  | case1 => simp [node, parts]
  | case2 k v => simp [node, Prod.ext_iff]
  | case3 first second rest entries ihl ihr =>
    have whole : entry ∈ entries.take (entries.length / 2) ∨ entry ∈ entries.drop (entries.length / 2) ↔
        entry ∈ entries := by
      rw [← List.mem_append, List.take_append_drop]
    have other : node entry ≠ .fork (layout (entries.take (entries.length / 2)))
        (layout (entries.drop (entries.length / 2))) := by
      intro same
      cases same
    rw [parts_fork, List.mem_cons, List.mem_append, ihl, ihr, whole]
    exact or_iff_right other

/-- Of the trees that entries are laid out in only that of the entry alone belongs to its node. -/
theorem mem_of_layout_mem_parts_node (h : layout entries ∈ (node entry).parts) : entry ∈ entries := by
  fun_cases layout entries with
  | case1 => simp [node, layout] at h
  | case2 k v =>
    obtain rfl : (k, v) = entry := by simpa [node, layout, Prod.ext_iff] using h
    exact List.mem_singleton_self _
  | case3 first second rest => simp [node, layout] at h

/-- What the entries are laid out in is hidden beside an entry's node if the entry is not among them. -/
theorem hidden_layout_iff :
    (node entry ∉ (layout entries).parts ∧ layout entries ∉ (node entry).parts) ↔ entry ∉ entries := by
  rw [node_mem_parts_layout_iff]
  exact ⟨fun h => h.1, fun other => ⟨other, fun inside => other (mem_of_layout_mem_parts_node inside)⟩⟩

/-- Where the key has one value, what is shown of the tree is the tree with all hidden beside its node. -/
theorem reveal_eq_hideBeside (only : ∀ e ∈ entries, e.1 = key → e.2 = value) :
    reveal key entries = (layout entries).hideBeside (node (key, value)) := by
  unfold hideBeside
  fun_induction reveal key entries with
  | case1 first second rest entries held ihl ihr =>
    have several : 2 ≤ entries.length := by simp [entries]
    have mem : (key, value) ∈ entries := by
      obtain ⟨e, mem, same⟩ := List.any_eq_true.mp held
      obtain rfl : e.1 = key := by simpa using same
      rwa [← only e mem rfl]
    have shown := mt hidden_layout_iff.mp (not_not_intro mem)
    change _ = (layout entries).hideWhere _
    rw [ihl fun e held => only e (List.mem_of_mem_take held),
      ihr fun e held => only e (List.mem_of_mem_drop held), layout_of_several several]
    rw [layout_of_several several] at shown
    rw [hideWhere_fork (by simpa using shown)]
  | case2 entries few held =>
    obtain ⟨v, rfl⟩ := eq_singleton_of_held held few
    obtain rfl := only _ (List.mem_singleton_self _) rfl
    rw [layout_singleton]
    simp [hideWhere, node]
  | case3 entries hidden =>
    have other : (key, value) ∉ entries := fun mem => ne_of_not_held hidden _ mem rfl
    rw [hideWhere_of_hidden]
    simpa using hidden_layout_iff.mpr other

/-- A pruning shows the node of an entry only where the node is. -/
theorem partAt?_of_pruning {t p : HashTree} (h : Pruning t p) (shown : p.partAt? turns = some (node entry)) :
    t.partAt? turns = some (node entry) := by
  obtain ⟨whole, stands, below⟩ := h.exists_partAt? shown
  cases below with
  | labeled label below => cases below with
    | leaf value => exact stands

/-- The witness of a key is the tree of the map with every largest part hidden that does not contain the key's
node. This node stands at one place, in the tree and in the witness; the forks above it are as many as the
logarithm of the number of entries, rounded down or up, and each has one hidden side. -/
theorem witness_hides_beside_key {m : CertifiedMap} (held : m.get? key = some value) :
    ∃ witness turns, m.witness? key = some witness ∧
      witness = m.tree.hideBeside (.labeled key (.leaf value)) ∧
      (∀ other, m.tree.partAt? other = some (.labeled key (.leaf value)) ↔ other = turns) ∧
      (∀ other, witness.partAt? other = some (.labeled key (.leaf value)) ↔ other = turns) ∧
      (turns.length = Nat.log 2 m.size ∨ turns.length = Nat.clog 2 m.size) ∧
      witness.parts.countP isPruned = turns.length := by
  have mem : (key, value) ∈ m.entries := get?_eq_some_iff.mp held
  obtain ⟨turns, leads⟩ := exists_leadsTo mem
  obtain ⟨shown, count⟩ := leads.reveal_spec m.increasing
  have only : ∀ e ∈ m.entries, e.1 = key → e.2 = value := by
    intro e he same
    subst same
    have : m.get? e.1 = some e.2 := get?_eq_some_iff.mpr he
    exact Option.some.inj (this.symm.trans held)
  have place : ∀ other, m.tree.partAt? other = some (node (key, value)) ↔ other = turns := by
    intro other
    rw [tree, partAt?_layout_iff]
    constructor
    · intro leads'
      exact leads'.unique m.increasing leads
    · intro same
      exact same ▸ leads
  refine ⟨reveal key m.entries, turns, witness?_eq_some_iff.mpr ⟨?_, rfl⟩, reveal_eq_hideBeside only, place,
    ?_, leads.length_eq, count⟩
  · rw [held]
    rfl
  · intro other
    constructor
    · intro shown'
      exact (place other).mp (partAt?_of_pruning (pruning_reveal key m.entries) shown')
    · intro same
      exact same ▸ shown

namespace Sample

theorem tree_three : three.tree = .fork (node ([1], [8])) (.fork (node ([1, 1], [])) (node ([2], [9]))) := by
  have entries : three.entries = [([1], [8]), ([1, 1], []), ([2], [9])] := rfl
  simp [tree, entries, layout, node]

end Sample

/-- Of three keys the second stands two turns below the root, where the first stands one below it. -/
theorem witness_hides_beside_key_sample :
    ∃ witness, Sample.three.witness? [1, 1] = some witness ∧
      witness = Sample.three.tree.hideBeside (.labeled [1, 1] (.leaf [])) ∧
      witness.partAt? [true, false] = some (.labeled [1, 1] (.leaf [])) ∧
      witness.parts.countP isPruned = 2 := by
  have held : Sample.three.get? [1, 1] = some [] := by decide
  obtain ⟨witness, turns, shown, hides, inTree, inWitness, -, count⟩ := witness_hides_beside_key held
  have stands : Sample.three.tree.partAt? [true, false] = some (.labeled [1, 1] (.leaf [])) := by
    rw [Sample.tree_three]
    simp [node]
  have turns := (inTree _).mp stands
  subst turns
  exact ⟨witness, shown, hides, (inWitness _).mpr rfl, count⟩

end CertifiedMap
end Certified
