import Certified.CertifiedMap.Layout

/-!
Keys are found by halving. The entries of a map and all their halves are sorted, so a search that looks into
one half only finds what a search through all of them does, and the witnesses made with it are the same.
-/

namespace Certified.CertifiedMap

/-- Looks for a key in the middle of some entries, and then in the half where it would have to be. -/
def searchHalves (key : Label) (entries : List Entry) : Bool :=
  match upper : entries.drop (entries.length / 2) with
  | [] => false
  | middle :: above =>
    if key = middle.1 then true
    else if key < middle.1 then searchHalves key (entries.take (entries.length / 2))
    else searchHalves key above
termination_by entries.length
decreasing_by
  all_goals have length := congrArg List.length upper
  all_goals simp only [List.length_drop, List.length_cons] at length
  · rw [List.length_take]
    omega
  · omega

section

variable {key : Label} {entries above : List Entry} {n : Nat} {middle : Entry}

/-- Sorted entries, cut at one of them. -/
theorem increasing_around (sorted : Increasing entries) (upper : entries.drop n = middle :: above) :
    Increasing (entries.take n) ∧ Increasing above ∧
      (∀ e ∈ entries.take n, e.1 < middle.1) ∧ ∀ e ∈ above, middle.1 < e.1 := by
  rw [← List.take_append_drop n entries, upper, Increasing, List.pairwise_append, List.pairwise_cons] at sorted
  obtain ⟨below, ⟨greater, rest⟩, apart⟩ := sorted
  exact ⟨below, rest, fun e mem => apart e mem middle List.mem_cons_self, greater⟩

/-- Keys before the middle one are among the entries before it. -/
theorem any_of_lt (sorted : Increasing entries) (upper : entries.drop n = middle :: above)
    (smaller : key < middle.1) : entries.any (·.1 = key) = (entries.take n).any (·.1 = key) := by
  obtain ⟨_, _, _, greater⟩ := increasing_around sorted upper
  have none : (middle :: above).any (·.1 = key) = false := by
    simp only [List.any_eq_false, decide_eq_true_eq]
    rintro e mem rfl
    rcases List.mem_cons.mp mem with rfl | mem
    · exact List.lt_irrefl _ smaller
    · exact List.lt_asymm smaller (greater e mem)
  calc entries.any (·.1 = key)
      = (entries.take n ++ middle :: above).any (·.1 = key) := by rw [← upper, List.take_append_drop]
    _ = (entries.take n).any (·.1 = key) := by rw [List.any_append, none, Bool.or_false]

/-- Keys after the middle one are among the entries after it. -/
theorem any_of_not_lt (sorted : Increasing entries) (upper : entries.drop n = middle :: above)
    (other : key ≠ middle.1) (notSmaller : ¬ key < middle.1) :
    entries.any (·.1 = key) = above.any (·.1 = key) := by
  obtain ⟨_, _, less, _⟩ := increasing_around sorted upper
  have none : (entries.take n).any (·.1 = key) = false := by
    simp only [List.any_eq_false, decide_eq_true_eq]
    rintro e mem rfl
    exact notSmaller (less e mem)
  calc entries.any (·.1 = key)
      = (entries.take n ++ middle :: above).any (·.1 = key) := by rw [← upper, List.take_append_drop]
    _ = above.any (·.1 = key) := by
        rw [List.any_append, none, Bool.false_or, List.any_cons, decide_eq_false (Ne.symm other),
          Bool.false_or]

end

/-- Among sorted entries the half that is not looked into does not have the key. -/
theorem searchHalves_eq_any (key : Label) {entries : List Entry} (sorted : Increasing entries) :
    searchHalves key entries = entries.any (·.1 = key) := by
  fun_induction searchHalves key entries with
  | case1 entries none =>
    have empty : entries = [] := by
      have length := congrArg List.length none
      simp only [List.length_drop, List.length_nil] at length
      exact List.eq_nil_of_length_eq_zero (by omega)
    rw [empty, List.any_nil]
  | case2 entries middle above upper =>
    have held : middle ∈ entries := List.mem_of_mem_drop (upper ▸ List.mem_cons_self)
    rw [eq_comm, List.any_eq_true]
    exact ⟨middle, held, decide_eq_true (Eq.symm ‹_›)⟩
  | case3 entries middle above upper other smaller ih =>
    rw [ih (increasing_around sorted upper).1, any_of_lt sorted upper smaller]
  | case4 entries middle above upper other notSmaller ih =>
    rw [ih (increasing_around sorted upper).2.1, any_of_not_lt sorted upper other notSmaller]

/-- The tree of the entries with all pruned that does not lead to a key, which is searched for anew in each
half. -/
def revealBySearch (key : Label) (entries : List Entry) : HashTree :=
  if searchHalves key entries then
    match entries with
    | first :: second :: rest =>
      let entries := first :: second :: rest
      .fork (revealBySearch key (entries.take (entries.length / 2)))
        (revealBySearch key (entries.drop (entries.length / 2)))
    | entries => layout entries
  else (layout entries).prune
termination_by entries.length
decreasing_by
  all_goals simp only [List.length_take, List.length_drop, List.length_cons]
  all_goals omega

theorem revealBySearch_eq (key : Label) {entries : List Entry} (sorted : Increasing entries) :
    revealBySearch key entries = reveal key entries := by
  fun_induction revealBySearch key entries with
  | case1 first second rest entries found ihl ihr =>
    rw [searchHalves_eq_any key sorted] at found
    rw [ihl (sorted.sublist (List.take_sublist _ _)), ihr (sorted.sublist (List.drop_sublist _ _)), reveal,
      if_pos found]
  | case2 entries notSeveral found =>
    rw [searchHalves_eq_any key sorted] at found
    rcases entries with _ | ⟨first, _ | ⟨second, rest⟩⟩
    · cases found
    · rw [reveal.eq_def, if_pos found]
    · exact absurd rfl (notSeveral first second rest)
  | case3 entries missing =>
    rw [searchHalves_eq_any key sorted] at missing
    rw [reveal.eq_def, if_neg missing]

/-- The witness for a key is made by searching for it, first among all entries and then in every half. -/
theorem witness?_eq_search (m : CertifiedMap) (key : Label) :
    m.witness? key =
      if searchHalves key m.entries then some (revealBySearch key m.entries) else none := by
  have held : (m.get? key).isSome = m.entries.any (·.1 = key) := by
    rw [get?, Option.isSome_map, List.isSome_find?]
  rw [witness?, revealBySearch_eq key m.increasing, searchHalves_eq_any key m.increasing, held]

end Certified.CertifiedMap
