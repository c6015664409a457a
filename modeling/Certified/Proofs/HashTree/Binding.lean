import Certified.HashTree.Lookup
import Certified.HashTree.Pruning

/-!
A root binds its tree up to pruning. The byte strings that are hashed for the kinds of nodes never
coincide, because each starts with a separator that no other one continues; so two trees with one root
show the same wherever both show something, unless two of the byte strings collide.
-/

namespace Certified

/-- A separator starts with its length, so none continues another: what follows can be told apart. -/
theorem domainSeparator_append_inj {a b : String} {x y : Bytes}
    (ha : (Bytes.ofText a).length < 256) (hb : (Bytes.ofText b).length < 256)
    (h : domainSeparator a ++ x = domainSeparator b ++ y) :
    Bytes.ofText a = Bytes.ofText b ∧ x = y := by
  simp only [domainSeparator, List.cons_append, List.cons.injEq] at h
  obtain ⟨hlen, hrest⟩ := h
  have hsame : (Bytes.ofText a).length = (Bytes.ofText b).length := by
    have := congrArg UInt8.toNat hlen
    simp only [UInt8.toNat_ofNat'] at this
    omega
  exact List.append_inj hrest hsame

theorem Digest.bytes_append_inj {a b : Digest} {x y : Bytes} (h : a.bytes ++ x = b.bytes ++ y) :
    a = b ∧ x = y := by
  obtain ⟨hbytes, hrest⟩ := List.append_inj h (a.length_eq.trans b.length_eq.symm)
  exact ⟨Digest.ext hbytes, hrest⟩

theorem Digest.append_bytes_inj {a b : Digest} {x y : Bytes} (h : x ++ a.bytes = y ++ b.bytes) :
    x = y ∧ a = b := by
  obtain ⟨hrest, hbytes⟩ := List.append_inj' h (a.length_eq.trans b.length_eq.symm)
  exact ⟨hrest, Digest.ext hbytes⟩

namespace HashTree

/-- The domain of a node that is shown, and what is hashed under it. -/
def preimage? : HashTree → Option (String × Bytes)
  | .empty => some ("ic-hashtree-empty", [])
  | .fork left right => some ("ic-hashtree-fork", left.root.bytes ++ right.root.bytes)
  | .labeled label subtree => some ("ic-hashtree-labeled", label ++ subtree.root.bytes)
  | .leaf value => some ("ic-hashtree-leaf", value)
  | .pruned _ => none

theorem preimage_mem_messages {t : HashTree} {name : String} {body : Bytes}
    (h : t.preimage? = some (name, body)) : domainSeparator name ++ body ∈ t.messages := by
  cases t <;> cases h <;> simp [messages, emptyMessage, forkMessage, labeledMessage, leafMessage]

theorem root_eq_sha256_preimage {t : HashTree} {name : String} {body : Bytes}
    (h : t.preimage? = some (name, body)) :
    t.root = .sha256 (domainSeparator name ++ body) := by
  cases t <;> cases h <;> simp [root, emptyMessage, forkMessage, labeledMessage, leafMessage]

theorem preimage_name_length {t : HashTree} {name : String} {body : Bytes}
    (h : t.preimage? = some (name, body)) : (Bytes.ofText name).length < 256 := by
  cases t <;> cases h <;> decide

/-- No two of the byte strings that are hashed for the two trees collide. -/
def CollisionFree (s t : HashTree) : Prop :=
  ¬ Collision (s.messages ++ t.messages)

theorem CollisionFree.of_subset {messages : List Bytes} {s t : HashTree} (safe : ¬ Collision messages)
    (hs : s.messages ⊆ messages) (ht : t.messages ⊆ messages) : CollisionFree s t := by
  intro hc
  exact safe (hc.mono (List.append_subset.mpr ⟨hs, ht⟩))

theorem CollisionFree.restrict {s t s' t' : HashTree} (safe : CollisionFree s t)
    (hs : s'.messages ⊆ s.messages) (ht : t'.messages ⊆ t.messages) : CollisionFree s' t' :=
  .of_subset safe (List.subset_append_of_subset_left _ hs) (List.subset_append_of_subset_right _ ht)

/-- Where two roots are equal and neither node is pruned, the nodes have one domain and hash the same
under it. -/
theorem CollisionFree.preimage_eq {s t : HashTree} (safe : CollisionFree s t)
    (h : s.root = t.root) {a b : String} {x y : Bytes}
    (hs : s.preimage? = some (a, x)) (ht : t.preimage? = some (b, y)) :
    Bytes.ofText a = Bytes.ofText b ∧ x = y := by
  apply domainSeparator_append_inj (preimage_name_length hs) (preimage_name_length ht)
  refine Decidable.byContradiction fun hne => safe ⟨_, List.mem_append_left _ (preimage_mem_messages hs),
    _, List.mem_append_right _ (preimage_mem_messages ht), hne, ?_⟩
  rw [← root_eq_sha256_preimage hs, ← root_eq_sha256_preimage ht, h]

theorem Agree.of_eq_root {s : HashTree} {digest : Digest} (h : s.root = digest) :
    Agree s (.pruned digest) :=
  h ▸ .prunedRight s

/-- Trees with one root agree. The induction is on the first tree; a node of the second is of the same
kind or pruned, since nodes of two kinds hash under two domains. -/
theorem CollisionFree.agree {s t : HashTree} (safe : CollisionFree s t) (h : s.root = t.root) :
    Agree s t := by
  induction s generalizing t with
  | empty =>
    cases t with
    | empty => exact .empty
    | pruned digest => exact .of_eq_root h
    | _ => exact absurd (safe.preimage_eq h rfl rfl).1 (by decide)
  | fork left right ihl ihr =>
    cases t with
    | fork left' right' =>
      obtain ⟨hleft, hbytes⟩ := Digest.bytes_append_inj (safe.preimage_eq h rfl rfl).2
      have safeLeft : CollisionFree left left' := safe.restrict (by simp [messages]) (by simp [messages])
      have safeRight : CollisionFree right right' :=
        safe.restrict (by simp [messages]) (by simp [messages])
      exact .fork (ihl safeLeft hleft) (ihr safeRight (Digest.ext hbytes))
    | pruned digest => exact .of_eq_root h
    | _ => exact absurd (safe.preimage_eq h rfl rfl).1 (by decide)
  | labeled label subtree ih =>
    cases t with
    | labeled label' subtree' =>
      obtain ⟨rfl, hroot⟩ := Digest.append_bytes_inj (safe.preimage_eq h rfl rfl).2
      have safeSubtree : CollisionFree subtree subtree' :=
        safe.restrict (by simp [messages]) (by simp [messages])
      exact .labeled label (ih safeSubtree hroot)
    | pruned digest => exact .of_eq_root h
    | _ => exact absurd (safe.preimage_eq h rfl rfl).1 (by decide)
  | leaf value =>
    cases t with
    | leaf value' =>
      obtain rfl := (safe.preimage_eq h rfl rfl).2
      exact .leaf value
    | pruned digest => exact .of_eq_root h
    | _ => exact absurd (safe.preimage_eq h rfl rfl).1 (by decide)
  | pruned digest => exact (Agree.of_eq_root h.symm).symm

/-- What one tree shows, a tree that agrees with it shows or hides. -/
theorem Agree.lookup_ne_absent {s t : HashTree} (h : Agree s t) {path : List Label} {value : Bytes}
    (found : s.lookup path = .found value) : t.lookup path ≠ .absent := by
  induction h generalizing path value with
  | prunedLeft t => simp [prune] at found
  | prunedRight t => simp [prune]
  | empty => cases path <;> simp [lookup] at found
  | fork _ _ ihl ihr =>
    cases path with
    | nil => simp [lookup]
    | cons label path =>
      rw [lookup_fork_cons] at found
      rw [lookup_fork_cons, ne_eq, Answer.or_eq_absent]
      rintro ⟨hl, hr⟩
      rcases Answer.found_of_or found with found | found
      · exact ihl found hl
      · exact ihr found hr
  | labeled label _ ih =>
    cases path with
    | nil => simp [lookup]
    | cons next path =>
      rw [lookup_labeled_cons] at found ⊢
      split at found
      · rename_i heq
        rw [if_pos heq]
        exact ih found
      · cases found
  | leaf value' => cases path <;> simp [lookup] at found ⊢

/-- Agreeing trees have one root, and trees with one root agree or hash two byte strings to one digest.
Without such a collision no path is found in one of them and absent from the other. -/
theorem root_binds (s t : HashTree) :
    (Agree s t → s.root = t.root) ∧
    (s.root = t.root → Agree s t ∨ Collision (s.messages ++ t.messages)) ∧
    (s.root = t.root → ¬ Collision (s.messages ++ t.messages) → ∀ path value,
      (s.lookup path = .found value → t.lookup path ≠ .absent) ∧
      (t.lookup path = .found value → s.lookup path ≠ .absent)) := by
  refine ⟨Agree.root_eq, ?_, ?_⟩
  · intro h
    by_cases hc : Collision (s.messages ++ t.messages)
    · exact .inr hc
    · exact .inl (CollisionFree.agree hc h)
  · intro h safe path value
    have agree : Agree s t := CollisionFree.agree safe h
    exact ⟨agree.lookup_ne_absent, agree.symm.lookup_ne_absent⟩

end HashTree
end Certified
