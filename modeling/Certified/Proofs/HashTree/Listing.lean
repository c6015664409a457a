import Certified.Proofs.HashTree.Pruning

/-!
What is listed and what is found. The leaves are listed in the order in which a search meets them, and the
first one that is listed with a path is the one found there, unless a leaf hangs from a fork: such a leaf is
listed, and no search ends at it.
-/

namespace Certified

theorem Answer.value?_or (a b : Answer) : (a.or b).value? = a.value?.or b.value? := by
  cases a <;> cases b <;> rfl

theorem Answer.value?_eq_some_iff {a : Answer} {value : Bytes} : a.value? = some value ↔ a = .found value := by
  cases a <;> simp [value?]

namespace HashTree

def isLeaf : HashTree → Bool
  | .leaf _ => true
  | _ => false

/-- No fork has a leaf as a side. -/
def LeavesLabeled : HashTree → Prop
  | .fork left right =>
    (left.isLeaf = false ∧ right.isLeaf = false) ∧ left.LeavesLabeled ∧ right.LeavesLabeled
  | .labeled _ subtree => subtree.LeavesLabeled
  | _ => True

instance decidableLeavesLabeled : (t : HashTree) → Decidable t.LeavesLabeled
  | .empty | .leaf _ | .pruned _ => .isTrue trivial
  | .labeled _ subtree => decidableLeavesLabeled subtree
  | .fork left right =>
    have := decidableLeavesLabeled left
    have := decidableLeavesLabeled right
    inferInstanceAs (Decidable ((_ ∧ _) ∧ _ ∧ _))

/-- The value of the first leaf that is listed with a path. -/
def firstListed? (path : List Label) (t : HashTree) : Option Bytes :=
  (t.paths.find? (·.1 = path)).map (·.2)

theorem firstListed?_eq_some_iff {t : HashTree} {path : List Label} {value : Bytes} :
    t.firstListed? path = some value ↔ t.paths.find? (·.1 = path) = some (path, value) := by
  unfold firstListed?
  rw [Option.map_eq_some_iff]
  constructor
  · rintro ⟨⟨listed, _⟩, first, rfl⟩
    have same : listed = path := by simpa using List.find?_some first
    rw [first, same]
  · intro first
    exact ⟨(path, value), first, rfl⟩

theorem firstListed?_eq_none_iff {t : HashTree} {path : List Label} :
    t.firstListed? path = none ↔ ∀ value, (path, value) ∉ t.paths := by
  unfold firstListed?
  rw [Option.map_eq_none_iff, List.find?_eq_none]
  constructor
  · intro missing value mem
    exact missing _ mem (by simp)
  · intro missing row mem same
    obtain rfl : row.1 = path := by simpa using same
    exact missing row.2 mem

theorem firstListed?_fork (path : List Label) (left right : HashTree) :
    (fork left right).firstListed? path = (left.firstListed? path).or (right.firstListed? path) := by
  unfold firstListed?
  rw [paths, List.find?_append, Option.map_or]

/-- Below a label the paths are those of the subtree, each with the label in front. -/
theorem firstListed?_labeled (label next : Label) (path : List Label) (subtree : HashTree) :
    (labeled label subtree).firstListed? (next :: path) =
      if label = next then subtree.firstListed? path else none := by
  unfold firstListed?
  rw [paths, List.find?_map, Option.map_map]
  split
  · rename_i same
    simp only [Function.comp_def, same, List.cons.injEq, true_and]
  · rename_i different
    simp [Function.comp_def, different]

theorem firstListed?_labeled_nil (label : Label) (subtree : HashTree) :
    (labeled label subtree).firstListed? [] = none := by
  rw [firstListed?_eq_none_iff]
  intro value mem
  obtain ⟨row, _, same⟩ := List.mem_map.mp mem
  cases same

/-- Only a tree that is a leaf itself lists the empty path. -/
theorem LeavesLabeled.firstListed?_nil {t : HashTree} (h : t.LeavesLabeled) (inner : t.isLeaf = false) :
    t.firstListed? [] = none := by
  induction t with
  | empty => rfl
  | fork left right ihl ihr =>
    obtain ⟨⟨innerLeft, innerRight⟩, hl, hr⟩ := h
    rw [firstListed?_fork, ihl hl innerLeft, ihr hr innerRight]
    rfl
  | labeled label subtree => exact firstListed?_labeled_nil label subtree
  | leaf value => cases inner
  | pruned digest => rfl

/-- A search finds the first leaf that is listed with the path. -/
theorem LeavesLabeled.value?_lookup {t : HashTree} (h : t.LeavesLabeled) (path : List Label) :
    (t.lookup path).value? = t.firstListed? path := by
  induction t generalizing path with
  | empty => cases path <;> rfl
  | fork left right ihl ihr =>
    cases path with
    | nil =>
      rw [h.firstListed?_nil rfl]
      rfl
    | cons label path =>
      obtain ⟨_, hl, hr⟩ := h
      rw [lookup_fork_cons, Answer.value?_or, ihl hl, ihr hr, firstListed?_fork]
  | labeled label subtree ih =>
    cases path with
    | nil =>
      rw [firstListed?_labeled_nil]
      rfl
    | cons next path =>
      rw [lookup_labeled_cons, firstListed?_labeled]
      split
      · exact ih h path
      · rfl
  | leaf value =>
    cases path with
    | nil => simp [firstListed?, paths, lookup, Answer.value?]
    | cons label path => simp [firstListed?, paths, lookup, Answer.value?]
  | pruned digest => cases path <;> rfl

/-- What is found at a path is listed with it. Where no leaf hangs from a fork, it is the first one that is, and
where none is, none is found. -/
theorem lookup_finds_first_listed :
    (∀ (t : HashTree) (path : List Label) (value : Bytes),
      t.lookup path = .found value → (path, value) ∈ t.paths) ∧
    ∀ t : HashTree, t.LeavesLabeled → ∀ path : List Label,
      (∀ value, t.lookup path = .found value ↔ t.paths.find? (·.1 = path) = some (path, value)) ∧
      ((∀ value, (path, value) ∉ t.paths) →
        t.lookup path = .absent ∨ t.lookup path = .unknown ∨ t.lookup path = .error) := by
  refine ⟨fun t path value => mem_paths_of_lookup, ?_⟩
  intro t labeled path
  have first := labeled.value?_lookup path
  constructor
  · intro value
    rw [← Answer.value?_eq_some_iff, first, firstListed?_eq_some_iff]
  · intro missing
    rw [firstListed?_eq_none_iff.mpr missing] at first
    cases answer : t.lookup path with
    | found value =>
      rw [answer] at first
      cases first
    | absent => exact .inl rfl
    | unknown => exact .inr (.inl rfl)
    | error => exact .inr (.inr rfl)

/-- A leaf that hangs from a fork is listed, and no search ends at it. -/
example : (labeled [1] (fork (leaf [5]) empty)).paths = [([[1]], [5])] ∧
    (labeled [1] (fork (leaf [5]) empty)).lookup [[1]] = .error := by
  decide

namespace Listing.Sample

/-- One label over forks and over two leaves. -/
def tree : HashTree :=
  .fork (.labeled [1] (.fork (.labeled [2] (.pruned (.sha256 []))) .empty))
    (.fork (.labeled [1] (.leaf [5])) (.labeled [1] (.leaf [6])))

theorem leavesLabeled : tree.LeavesLabeled := by
  decide

end Listing.Sample

/-- Both leaves are listed, and the first one is found; the path into the pruned tree has no entry. -/
theorem lookup_finds_first_listed_sample :
    Listing.Sample.tree.LeavesLabeled ∧ Listing.Sample.tree.paths = [([[1]], [5]), ([[1]], [6])] ∧
    Listing.Sample.tree.lookup [[1]] = .found [5] ∧
    (Listing.Sample.tree.lookup [[1], [2]] = .absent ∨ Listing.Sample.tree.lookup [[1], [2]] = .unknown ∨
      Listing.Sample.tree.lookup [[1], [2]] = .error) := by
  obtain ⟨_, first⟩ := lookup_finds_first_listed
  obtain ⟨found, _⟩ := first _ Listing.Sample.leavesLabeled [[1]]
  obtain ⟨_, missing⟩ := first _ Listing.Sample.leavesLabeled [[1], [2]]
  refine ⟨Listing.Sample.leavesLabeled, rfl, (found [5]).mpr rfl, missing ?_⟩
  intro value
  simp [Listing.Sample.tree, paths]

end HashTree
end Certified
