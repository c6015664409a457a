import Mathlib
import Certified.Toml.Tables

/-!
Tables that are each written in one place. With distinct names, and distinct keys in each, the statements of a
document build these tables and nothing else.
-/

namespace Certified.Toml

/-- The node of a table that has been written. -/
def nodeOf (pairs : List (String × Value)) : Node :=
  .table .header (pairs.map fun (key, value) => (key, .value value))

namespace Entries

/-- The keys in their order. -/
def keys (entries : Entries) : List String :=
  entries.map (·.1)

theorem get?_of_missing {key : String} {entries : Entries} (missing : key ∉ keys entries) :
    get? key entries = none := by
  have other : ∀ entry ∈ entries, ¬ entry.1 = key := by
    intro entry mem same
    exact missing (List.mem_map.mpr ⟨entry, mem, same⟩)
  rw [get?, List.find?_eq_none.mpr (by simpa using other)]
  rfl

theorem set_of_missing {key : String} {entries : Entries} (missing : key ∉ keys entries) (node : Node) :
    set key node entries = entries ++ [(key, node)] := by
  have other : ¬ entries.any (·.1 = key) = true := by
    intro found
    obtain ⟨entry, mem, same⟩ := List.any_eq_true.mp found
    exact missing (List.mem_map.mpr ⟨entry, mem, of_decide_eq_true same⟩)
  rw [set, if_neg other]

theorem assign_of_missing {key : String} {entries : Entries} (missing : key ∉ keys entries) (value : Value) :
    assign [key] value entries = some (entries ++ [(key, .value value)]) := by
  simp [assign, descend, get?_of_missing missing, set_of_missing missing]

/-- Values under new keys are added in their order. -/
theorem assignAll_of_nodup {pairs : List (String × Value)} {entries : Entries}
    (nodup : (keys entries ++ pairs.map (·.1)).Nodup) :
    assignAll (pairs.map fun (key, value) => ([key], value)) entries =
      some (entries ++ pairs.map fun (key, value) => (key, .value value)) := by
  induction pairs generalizing entries with
  | nil => simp [assignAll]
  | cons pair pairs ih =>
    obtain ⟨key, value⟩ := pair
    have missing : key ∉ keys entries := by
      intro mem
      exact (List.nodup_append.mp nodup).2.2 key mem key List.mem_cons_self rfl
    have nodup' : (keys (entries ++ [(key, .value value)]) ++ pairs.map (·.1)).Nodup := by
      simpa [keys] using nodup
    have later := ih nodup'
    rw [assignAll] at later ⊢
    rw [List.map_cons, List.foldlM_cons]
    simp only [assign_of_missing missing, Option.bind_eq_bind, Option.bind_some, later]
    simp

theorem addTable_of_missing {name : String} {entries : Entries} (missing : name ∉ keys entries)
    {pairs : List (String × Value)} (nodup : (pairs.map (·.1)).Nodup) :
    addTable [name] (pairs.map fun (key, value) => ([key], value)) entries =
      some (entries ++ [(name, nodeOf pairs)]) := by
  have nodup' : (keys [] ++ pairs.map (·.1)).Nodup := by simpa [keys] using nodup
  have inner := assignAll_of_nodup nodup'
  simp [addTable, descend, get?_of_missing missing, set_of_missing missing, inner, nodeOf]

end Entries

/-- The statements that write some tables, one after the other. -/
def statementsOf : List (String × List (String × Value)) → List Statement
  | [] => []
  | (name, pairs) :: tables =>
    .table [name] :: (pairs.map (fun (key, value) => .assign [key] value) ++ statementsOf tables)

theorem splitAssignments_append (pairs : List (String × Value)) (tables : List (String × List (String × Value))) :
    splitAssignments (pairs.map (fun (key, value) => .assign [key] value) ++ statementsOf tables) =
      (pairs.map fun (key, value) => ([key], value), statementsOf tables) := by
  induction pairs with
  | nil =>
    cases tables with
    | nil => rfl
    | cons table tables => rfl
  | cons pair pairs ih => simp only [List.map_cons, List.cons_append, splitAssignments, ih]

theorem addStatements_statementsOf {tables : List (String × List (String × Value))} {entries : Entries}
    (names : (Entries.keys entries ++ tables.map (·.1)).Nodup)
    (distinct : ∀ table ∈ tables, (table.2.map (·.1)).Nodup) {fuel : Nat} (enough : tables.length ≤ fuel) :
    addStatements fuel (statementsOf tables) entries =
      some (entries ++ tables.map fun (name, pairs) => (name, nodeOf pairs)) := by
  induction tables generalizing entries fuel with
  | nil => cases fuel <;> simp [statementsOf, addStatements]
  | cons table tables ih =>
    obtain ⟨name, pairs⟩ := table
    obtain ⟨fuel, rfl⟩ := Nat.exists_eq_add_of_le' (Nat.one_le_of_lt enough)
    obtain ⟨here, later⟩ := List.forall_mem_cons.mp distinct
    have missing : name ∉ Entries.keys entries := by
      intro mem
      exact (List.nodup_append.mp names).2.2 name mem name List.mem_cons_self rfl
    have names' : (Entries.keys (entries ++ [(name, nodeOf pairs)]) ++ tables.map (·.1)).Nodup := by
      simpa [Entries.keys] using names
    have rest := ih names' later (Nat.le_of_succ_le_succ enough)
    rw [statementsOf, addStatements]
    simp only [splitAssignments_append, Entries.addTable_of_missing missing here, rest, Option.bind_eq_bind,
      Option.bind_some]
    simp

theorem toValues_map_value (pairs : List (String × Value)) :
    toValues (pairs.map fun (key, value) => (key, .value value)) = pairs := by
  induction pairs with
  | nil => rfl
  | cons pair pairs ih => simp only [List.map_cons, toValues, Node.toValue, ih]

theorem toValues_map_nodeOf (tables : List (String × List (String × Value))) :
    toValues (tables.map fun (name, pairs) => (name, nodeOf pairs)) =
      tables.map fun (name, pairs) => (name, .table pairs) := by
  induction tables with
  | nil => rfl
  | cons table tables ih =>
    simp only [List.map_cons, toValues, nodeOf, Node.toValue, toValues_map_value]
    simp only [nodeOf] at ih
    rw [ih]

theorem length_le_statementsOf (tables : List (String × List (String × Value))) :
    tables.length ≤ (statementsOf tables).length := by
  induction tables with
  | nil => rfl
  | cons table tables ih =>
    simp only [statementsOf, List.length_cons, List.length_append]
    omega

/-- The document of tables with distinct names and distinct keys is these tables. -/
theorem ofStatements?_statementsOf {tables : List (String × List (String × Value))}
    (names : (tables.map (·.1)).Nodup) (distinct : ∀ table ∈ tables, (table.2.map (·.1)).Nodup) :
    ofStatements? (statementsOf tables) = some (tables.map fun (name, pairs) => (name, .table pairs)) := by
  rw [ofStatements?, addStatements_statementsOf (by simpa [Entries.keys] using names) distinct
    (length_le_statementsOf tables), Option.map_some, List.nil_append, toValues_map_nodeOf]

end Certified.Toml
