import Certified.HashTree.Nodes
import Certified.Proofs.HashTree.Binding

/-!
What a pruned tree still says. Where the labels of a tree are distinct, a pruning answers a path as the
tree does or not at all; so a tree with the root of a complete one says nothing false about it, unless
two of the byte strings that were hashed collide.
-/

namespace Certified

/-- If one of two answers knows of no value, hiding either of them hides the stronger one or leaves it. -/
theorem Answer.or_hidden {a b a' b' : Answer} (ha : a' = .unknown ∨ a' = a)
    (hb : b' = .unknown ∨ b' = b)
    (weak : (a = .absent ∨ a = .unknown) ∨ (b = .absent ∨ b = .unknown)) :
    a'.or b' = .unknown ∨ a'.or b' = a.or b := by
  rcases ha with rfl | rfl <;> rcases hb with rfl | rfl
  · exact .inl rfl
  · rcases weak with (rfl | rfl) | (rfl | rfl)
    · cases b' <;> simp [Answer.or]
    · exact .inr rfl
    · exact .inl rfl
    · exact .inl rfl
  · rcases weak with (rfl | rfl) | (rfl | rfl)
    · exact .inl rfl
    · exact .inl rfl
    · cases a' <;> simp [Answer.or]
    · exact .inr rfl
  · exact .inr rfl

namespace HashTree

theorem lookup_of_label_not_mem {t : HashTree} {label : Label} (h : label ∉ t.labels)
    (path : List Label) :
    t.lookup (label :: path) = .absent ∨ t.lookup (label :: path) = .unknown := by
  induction t with
  | empty => exact .inl rfl
  | fork left right ihl ihr =>
    rw [labels_fork, List.mem_append, not_or] at h
    rw [lookup_fork_cons]
    rcases ihl h.1 with hl | hl <;> rcases ihr h.2 with hr | hr <;> simp [hl, hr, Answer.or]
  | labeled next subtree =>
    have hne : next ≠ label := by
      rintro rfl
      simp at h
    rw [lookup_labeled_cons, if_neg hne]
    exact .inl rfl
  | leaf value => exact .inl rfl
  | pruned digest => exact .inr rfl

/-- One side of a fork with distinct labels has nothing to say about a label. -/
theorem DistinctLabels.weak_side {left right : HashTree} (h : (fork left right).DistinctLabels)
    (label : Label) (path : List Label) :
    (left.lookup (label :: path) = .absent ∨ left.lookup (label :: path) = .unknown) ∨
      (right.lookup (label :: path) = .absent ∨ right.lookup (label :: path) = .unknown) := by
  obtain ⟨nodup, _, _⟩ := h
  by_cases hl : label ∈ left.labels
  · have hr : label ∉ right.labels := fun hr =>
      (List.nodup_append.mp nodup).2.2 label hl label hr rfl
    exact .inr (lookup_of_label_not_mem hr path)
  · exact .inl (lookup_of_label_not_mem hl path)

/-- A pruning of a tree with distinct labels hides the answer or gives it. -/
theorem Pruning.lookup_eq {t p : HashTree} (h : Pruning t p) (distinct : t.DistinctLabels)
    (path : List Label) : p.lookup path = .unknown ∨ p.lookup path = t.lookup path := by
  induction h generalizing path with
  | here t => exact .inl (lookup_pruned _ path)
  | empty => exact .inr rfl
  | fork _ _ ihl ihr =>
    cases path with
    | nil => exact .inr rfl
    | cons label path =>
      have weak := distinct.weak_side label path
      obtain ⟨_, hl, hr⟩ := distinct
      exact Answer.or_hidden (ihl hl (label :: path)) (ihr hr (label :: path)) weak
  | labeled label _ ih =>
    cases path with
    | nil => exact .inr rfl
    | cons next path =>
      rw [lookup_labeled_cons, lookup_labeled_cons]
      split
      · exact ih distinct path
      · exact .inr rfl
  | leaf value => exact .inr rfl

/-- A pruning says that nothing is stored at a path only where the tree says so. -/
theorem Pruning.lookup_absent {t p : HashTree} (h : Pruning t p) {path : List Label}
    (absent : p.lookup path = .absent) : t.lookup path = .absent := by
  induction h generalizing path with
  | here t => simp [prune] at absent
  | empty => exact absent
  | fork _ _ ihl ihr =>
    cases path with
    | nil => exact absent
    | cons label path =>
      rw [lookup_fork_cons, Answer.or_eq_absent] at absent ⊢
      exact ⟨ihl absent.1, ihr absent.2⟩
  | labeled label _ ih =>
    cases path with
    | nil => exact absent
    | cons next path =>
      rw [lookup_labeled_cons] at absent ⊢
      split at absent
      · rename_i heq
        rw [if_pos heq]
        exact ih absent
      · rename_i hne
        rw [if_neg hne]
  | leaf value => exact absent

/-- What is found at a path is listed with it. -/
theorem mem_paths_of_lookup {t : HashTree} {path : List Label} {value : Bytes}
    (found : t.lookup path = .found value) : (path, value) ∈ t.paths := by
  induction t generalizing path with
  | empty => cases path <;> simp [lookup] at found
  | fork left right ihl ihr =>
    cases path with
    | nil => simp [lookup] at found
    | cons label path =>
      rw [lookup_fork_cons] at found
      rw [paths, List.mem_append]
      exact (Answer.found_of_or found).imp ihl ihr
  | labeled label subtree ih =>
    cases path with
    | nil => simp [lookup] at found
    | cons next path =>
      rw [lookup_labeled_cons] at found
      split at found
      · rename_i heq
        exact List.mem_map.mpr ⟨(path, value), ih found, by rw [heq]⟩
      · cases found
  | leaf value' =>
    cases path with
    | nil =>
      cases found
      exact List.mem_singleton.mpr rfl
    | cons next path => simp [lookup] at found
  | pruned digest => simp at found

/-- A pruning lists some of the leaves, in their order. -/
theorem Pruning.paths_sublist {t p : HashTree} (h : Pruning t p) : p.paths.Sublist t.paths := by
  induction h with
  | here t => exact List.nil_sublist _
  | empty => exact List.Sublist.refl _
  | fork _ _ ihl ihr => exact ihl.append ihr
  | labeled label _ ih => exact ih.map _
  | leaf value => exact List.Sublist.refl _

/-- What is hashed for a pruning is hashed for the tree. -/
theorem Pruning.messages_subset {t p : HashTree} (h : Pruning t p) : p.messages ⊆ t.messages := by
  induction h with
  | here t => exact List.nil_subset _
  | empty => exact List.Subset.refl _
  | fork hl hr ihl ihr =>
    rw [messages, messages, hl.root_eq, hr.root_eq]
    refine List.cons_subset_cons _ (List.append_subset.mpr ⟨?_, ?_⟩)
    · exact List.Subset.trans ihl (List.subset_append_left _ _)
    · exact List.Subset.trans ihr (List.subset_append_right _ _)
  | labeled label hs ih =>
    rw [messages, messages, hs.root_eq]
    exact List.cons_subset_cons _ ih
  | leaf value => exact List.Subset.refl _

/-- A pruning keeps the root and says nothing false: what it calls absent is absent, what it shows is a
leaf of the tree, and where labels are distinct it answers as the tree does or not at all. -/
theorem Pruning.sound {t p : HashTree} (h : Pruning t p) :
    p.root = t.root ∧ ∀ path,
      (p.lookup path = .absent → t.lookup path = .absent) ∧
      (∀ value, p.lookup path = .found value → (path, value) ∈ t.paths) ∧
      (t.DistinctLabels → p.lookup path = .unknown ∨ p.lookup path = t.lookup path) := by
  refine ⟨h.root_eq, fun path => ⟨h.lookup_absent, ?_, fun distinct => h.lookup_eq distinct path⟩⟩
  intro value found
  exact h.paths_sublist.subset (mem_paths_of_lookup found)

namespace Sample

/-- A tree of which a subtree is pruned already. -/
def whole : HashTree :=
  .fork
    (.labeled [1] (.fork (.labeled [2] (.leaf [5])) (.labeled [3] (.leaf [6]))))
    (.fork (.labeled [2] (.leaf [7])) (.pruned (.sha256 [])))

/-- Two more subtrees are pruned, one of them below a label that stays. -/
def redacted : HashTree :=
  .fork
    (.labeled [1] (.fork (HashTree.labeled [2] (.leaf [5])).prune (.labeled [3] (.leaf [6]))))
    (.fork (.labeled [2] (HashTree.leaf [7]).prune) (.pruned (.sha256 [])))

theorem pruning : Pruning whole redacted :=
  .fork (.labeled _ (.fork (.here _) (.refl _))) (.fork (.labeled _ (.here _)) (.refl _))

theorem distinctLabels : whole.DistinctLabels := by
  decide

end Sample

theorem Pruning.sound_sample :
    Pruning Sample.whole Sample.redacted ∧
    Sample.redacted.root = Sample.whole.root ∧ ∀ path,
      (Sample.redacted.lookup path = .absent → Sample.whole.lookup path = .absent) ∧
      (∀ value, Sample.redacted.lookup path = .found value → (path, value) ∈ Sample.whole.paths) ∧
      (Sample.redacted.lookup path = .unknown ∨
        Sample.redacted.lookup path = Sample.whole.lookup path) := by
  obtain ⟨root, answers⟩ := Pruning.sound Sample.pruning
  refine ⟨Sample.pruning, root, fun path => ?_⟩
  obtain ⟨absent, found, alike⟩ := answers path
  exact ⟨absent, found, alike Sample.distinctLabels⟩

/-- Nothing in the tree is pruned. -/
def Complete : HashTree → Prop
  | .fork left right => left.Complete ∧ right.Complete
  | .labeled _ subtree => subtree.Complete
  | .pruned _ => False
  | _ => True

theorem Agree.pruning {s t : HashTree} (h : Agree s t) (complete : t.Complete) : Pruning t s := by
  induction h with
  | prunedLeft t => exact .here t
  | prunedRight t => exact complete.elim
  | empty => exact .empty
  | fork _ _ ihl ihr => exact .fork (ihl complete.1) (ihr complete.2)
  | labeled label _ ih => exact .labeled label (ih complete)
  | leaf value => exact .leaf value

/-- Trees that agree are one where nothing is pruned. -/
theorem Agree.eq_of_complete {s t : HashTree} (h : Agree s t) (hs : s.Complete) (ht : t.Complete) :
    s = t := by
  induction h with
  | prunedLeft t => exact hs.elim
  | prunedRight t => exact ht.elim
  | empty => rfl
  | fork _ _ ihl ihr => rw [ihl hs.1 ht.1, ihr hs.2 ht.2]
  | labeled label _ ih => rw [ih hs ht]
  | leaf value => rfl

/-- A tree with the root of a complete one whose labels are distinct hides an answer or gives it. -/
theorem CollisionFree.lookup_eq {s t : HashTree} (safe : CollisionFree s t) (h : s.root = t.root)
    (complete : t.Complete) (distinct : t.DistinctLabels) (path : List Label) :
    s.lookup path = .unknown ∨ s.lookup path = t.lookup path :=
  ((safe.agree h).pruning complete).lookup_eq distinct path

end HashTree
end Certified
