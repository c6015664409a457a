import Certified.HashTree.Basic

/-!
The map in which a canister keeps the values that it certifies, sorted by key. The lemmas say that
putting an entry in keeps the order.
-/

namespace Certified

abbrev Entry := Label × Bytes

/-- Entries in strictly increasing order of their keys. -/
def Increasing (entries : List Entry) : Prop :=
  entries.Pairwise fun a b => a.1 < b.1

@[ext] structure CertifiedMap where
  entries : List Entry
  increasing : Increasing entries
deriving DecidableEq

namespace CertifiedMap

/-- Puts an entry at its place, where it replaces the entry of an equal key. -/
def put (key : Label) (value : Bytes) : List Entry → List Entry
  | [] => [(key, value)]
  | (k, v) :: rest =>
    if key < k then (key, value) :: (k, v) :: rest
    else if key = k then (key, value) :: rest
    else (k, v) :: put key value rest

theorem mem_put {key : Label} {value : Bytes} {e : Entry} {entries : List Entry}
    (h : e ∈ put key value entries) : e = (key, value) ∨ e ∈ entries := by
  induction entries with
  | nil => simpa [put] using h
  | cons head rest ih =>
    obtain ⟨k, v⟩ := head
    simp only [put] at h
    split at h
    · simpa using h
    split at h
    · rcases List.mem_cons.mp h with h | h
      · exact .inl h
      · exact .inr (List.mem_cons_of_mem _ h)
    · rcases List.mem_cons.mp h with h | h
      · exact .inr (h ▸ List.mem_cons_self)
      · exact (ih h).imp_right (List.mem_cons_of_mem _)

theorem increasing_put {key : Label} {value : Bytes} {entries : List Entry}
    (h : Increasing entries) : Increasing (put key value entries) := by
  induction entries with
  | nil => exact List.pairwise_singleton _ _
  | cons head rest ih =>
    obtain ⟨k, v⟩ := head
    obtain ⟨hk, hrest⟩ := List.pairwise_cons.mp h
    simp only [put]
    split
    · rename_i hlt
      refine List.pairwise_cons.mpr ⟨?_, h⟩
      intro e he
      rcases List.mem_cons.mp he with rfl | he
      · exact hlt
      · exact List.lt_trans hlt (hk e he)
    split
    · rename_i heq
      exact List.pairwise_cons.mpr ⟨heq ▸ hk, hrest⟩
    · rename_i hnlt hne
      refine List.pairwise_cons.mpr ⟨?_, ih hrest⟩
      intro e he
      rcases mem_put he with rfl | he
      · exact List.not_le.mp fun hle => hne (List.le_antisymm hle (List.not_lt.mp hnlt))
      · exact hk e he

def empty : CertifiedMap :=
  ⟨[], List.Pairwise.nil⟩

def size (m : CertifiedMap) : Nat :=
  m.entries.length

def isEmpty (m : CertifiedMap) : Bool :=
  m.entries.isEmpty

def get? (m : CertifiedMap) (key : Label) : Option Bytes :=
  (m.entries.find? (·.1 = key)).map (·.2)

def insert (m : CertifiedMap) (key : Label) (value : Bytes) : CertifiedMap :=
  ⟨put key value m.entries, increasing_put m.increasing⟩

/-- The digest of a payload becomes the value. -/
def insertPayload (m : CertifiedMap) (key : Label) (payload : Bytes) : CertifiedMap :=
  m.insert key (Digest.sha256 payload).bytes

def erase (m : CertifiedMap) (key : Label) : CertifiedMap :=
  ⟨m.entries.filter (·.1 ≠ key), List.Pairwise.filter _ m.increasing⟩

/-- Of several entries with one key the last stays. -/
def ofList (entries : List Entry) : CertifiedMap :=
  entries.foldl (fun m (key, value) => m.insert key value) empty

end CertifiedMap
end Certified
