import Certified.Proofs.Base32.Bits
import Certified.Proofs.Principal

/-!
The text of a principal is made of groups of five lowercase symbols with a dash between two groups, and no other
text in such groups spells the same.
-/

namespace Certified

/-- Cutting at a mark takes out the marks and nothing else. -/
theorem flatten_splitOn (mark : Char) (chars : List Char) :
    (chars.splitOn mark).flatten = chars.filter (· ≠ mark) := by
  induction chars with
  | nil => rfl
  | cons c chars ih =>
    rw [List.splitOn_cons_eq_if_modifyHead]
    by_cases here : c = mark
    · simp [here, ih]
    · obtain ⟨first, more, pieces⟩ := List.exists_cons_of_ne_nil (List.splitOn_ne_nil mark chars)
      rw [pieces, List.flatten_cons] at ih
      simp [here, pieces, ih]

/-- Groups of five characters. The last group may have fewer, but not none. -/
inductive Fives : List (List Char) → Prop where
  | last {group : List Char} (occupied : 0 < group.length) (short : group.length ≤ 5) : Fives [group]
  | cons {group : List Char} {groups : List (List Char)} (full : group.length = 5) (rest : Fives groups) :
    Fives (group :: groups)

theorem dashed_of_length_le {room : Nat} {chars : List Char} (fits : chars.length ≤ room) :
    dashed room chars = chars := by
  induction chars generalizing room with
  | nil => cases room <;> rfl
  | cons c chars ih =>
    cases room with
    | zero => cases fits
    | succ room => rw [dashed, ih (Nat.le_of_succ_le_succ fits)]

/-- A dash follows the characters that there is room for, if more characters do. -/
theorem dashed_append {room : Nat} {front rest : List Char} (full : front.length = room) (more : rest ≠ []) :
    dashed room (front ++ rest) = front ++ '-' :: dashed 5 rest := by
  subst full
  induction front with
  | nil =>
    obtain ⟨c, rest, rfl⟩ := List.exists_cons_of_ne_nil more
    rfl
  | cons c front ih => rw [List.length_cons, List.cons_append, dashed, ih, List.cons_append]

namespace Fives

variable {groups : List (List Char)}

theorem ne_nil (fives : Fives groups) : groups ≠ [] := by
  cases fives <;> exact List.cons_ne_nil _ _

theorem flatten_ne_nil (fives : Fives groups) : groups.flatten ≠ [] := by
  apply List.ne_nil_of_length_pos
  cases fives with
  | last occupied short => rwa [List.flatten_singleton]
  | cons full rest =>
    rw [List.flatten_cons, List.length_append]
    omega

/-- What is written for characters are their groups with dashes between them. -/
theorem dashed_flatten (fives : Fives groups) : dashed 5 groups.flatten = List.intercalate ['-'] groups := by
  induction fives with
  | last occupied short =>
    rw [List.flatten_singleton, List.intercalate_singleton, dashed_of_length_le short]
  | cons full rest ih =>
    rw [List.flatten_cons, dashed_append full rest.flatten_ne_nil, ih,
      List.intercalate_cons_of_ne_nil rest.ne_nil, List.append_assoc, List.singleton_append]

end Fives

/-- All characters but none fall into groups. -/
theorem exists_fives {chars : List Char} (occupied : chars ≠ []) :
    ∃ groups, Fives groups ∧ groups.flatten = chars := by
  induction length : chars.length using Nat.strong_induction_on generalizing chars with
  | h n ih =>
    by_cases short : chars.length ≤ 5
    · exact ⟨[chars], .last (List.length_pos_of_ne_nil occupied) short, List.flatten_singleton⟩
    · have more : chars.drop 5 ≠ [] := mt List.drop_eq_nil_iff.mp short
      have fewer : (chars.drop 5).length < n := by
        rw [List.length_drop]
        omega
      obtain ⟨groups, fives, rest⟩ := ih _ fewer more rfl
      refine ⟨chars.take 5 :: groups, .cons (List.length_take_of_le (by omega)) fives, ?_⟩
      rw [List.flatten_cons, rest, List.take_append_drop]

/-- Dashes cut a text into groups of five exactly if they are the dashes that are written for its other
characters, of which there is at least one. -/
theorem fives_splitOn_iff {chars : List Char} :
    Fives (chars.splitOn '-') ↔ chars ≠ [] ∧ chars = dashed 5 (chars.filter (· ≠ '-')) := by
  constructor
  · intro fives
    have written := fives.dashed_flatten
    have occupied := fives.flatten_ne_nil
    rw [flatten_splitOn] at written occupied
    rw [List.intercalate_splitOn] at written
    exact ⟨fun empty => occupied (by rw [empty]; rfl), written.symm⟩
  · rintro ⟨occupied, written⟩
    have plain : chars.filter (· ≠ '-') ≠ [] := by
      intro none
      rw [none] at written
      exact occupied written
    obtain ⟨groups, fives, joined⟩ := exists_fives plain
    have whole : ∀ group ∈ groups, '-' ∉ group := by
      intro group held dash
      have kept : '-' ∈ chars.filter (· ≠ '-') := joined ▸ List.mem_flatten.mpr ⟨group, held, dash⟩
      simp at kept
    rw [written, ← joined, fives.dashed_flatten, List.splitOn_intercalate '-' whole fives.ne_nil]
    exact fives

namespace Principal

/-- The lowercase letters and the digits from two to seven. -/
def alphabet : List Char :=
  "abcdefghijklmnopqrstuvwxyz234567".toList

theorem alphabet_eq : alphabet = (List.range 32).map fun n => (Base32.symbol n).toLower := by
  decide

theorem mem_alphabet_iff {c : Char} : c ∈ alphabet ↔ ∃ n < 32, (Base32.symbol n).toLower = c := by
  simp only [alphabet_eq, List.mem_map, List.mem_range]

theorem toLower_toUpper_of_mem {c : Char} (mem : c ∈ alphabet) : c.toUpper.toLower = c := by
  obtain ⟨n, small, rfl⟩ := mem_alphabet_iff.mp mem
  rw [toUpper_toLower_symbol n small]

/-- A text of lowercase symbols, in groups of five with dashes between them. -/
structure Grouped (text : String) : Prop where
  known : ∀ c ∈ text.toList, c = '-' ∨ c ∈ alphabet
  fives : Fives (text.toList.splitOn '-')

/-- A text in groups is told from what it spells. -/
theorem Grouped.eq_ofList {text : String} (grouped : Grouped text) :
    text = String.ofList (dashed 5 ((spelling text).map Char.toLower)) := by
  have back : ∀ c ∈ text.toList.filter (· ≠ '-'), c.toUpper.toLower = c := by
    intro c mem
    obtain ⟨held, plain⟩ := List.mem_filter.mp mem
    exact toLower_toUpper_of_mem ((grouped.known c held).resolve_left (of_decide_eq_true plain))
  have lower : (spelling text).map Char.toLower = text.toList.filter (· ≠ '-') :=
    map_map_eq_self back
  rw [lower, ← (fives_splitOn_iff.mp grouped.fives).2, String.ofList_toList]

theorem mem_alphabet_of_lower {c : Char} {bytes : Bytes} (mem : c ∈ (Base32.encode bytes).map Char.toLower) :
    c ∈ alphabet := by
  obtain ⟨s, held, rfl⟩ := List.mem_map.mp mem
  obtain ⟨n, small, rfl⟩ := Base32.exists_symbol_of_mem_encode held
  exact mem_alphabet_iff.mpr ⟨n, small, rfl⟩

/-- The text of a principal without its dashes. -/
theorem filter_toText (p : Principal) : p.toText.toList.filter (· ≠ '-') =
    (Base32.encode (Crc32.checksumBytes p.bytes ++ p.bytes)).map Char.toLower := by
  have dashless : '-' ∉ alphabet := by decide
  rw [toText, String.toList_ofList]
  exact filter_dashed (fun c mem dash => dashless (dash ▸ mem_alphabet_of_lower mem)) 5

theorem length_spelling_toText (p : Principal) :
    (spelling p.toText).length = 8 * (p.bytes.length + 4) ⌈/⌉ 5 := by
  rw [spelling_toText, Base32.encode, List.length_map, Radix.length_digits, List.length_append,
    length_checksumBytes, Base32.encodedLength, Nat.ceilDiv_eq_add_pred_div, Nat.add_comm 4]
  rfl

theorem toList_toText_ne_nil (p : Principal) : p.toText.toList ≠ [] := by
  intro empty
  have length := p.length_spelling_toText
  rw [spelling, empty, Nat.ceilDiv_eq_add_pred_div] at length
  simp only [List.filter_nil, List.map_nil, List.length_nil] at length
  omega

theorem grouped_toText (p : Principal) : Grouped p.toText := by
  constructor
  · intro c held
    by_cases dash : c = '-'
    · exact .inl dash
    · have kept : c ∈ p.toText.toList.filter (· ≠ '-') := List.mem_filter.mpr ⟨held, decide_eq_true dash⟩
      rw [filter_toText] at kept
      exact .inr (mem_alphabet_of_lower kept)
  · have written : p.toText.toList = dashed 5 (p.toText.toList.filter (· ≠ '-')) := by
      rw [filter_toText, toText, String.toList_ofList]
    exact fives_splitOn_iff.mpr ⟨p.toList_toText_ne_nil, written⟩

/-- The text of a principal is grouped, and it spells the symbols of the checksum and of the bytes, which stand
for their bits. No other text in groups spells these symbols. -/
theorem text_in_groups_of_five (p : Principal) :
    Grouped p.toText ∧
    spelling p.toText = Base32.encode (Crc32.checksumBytes p.bytes ++ p.bytes) ∧
    Base32.Spells (spelling p.toText) (Crc32.checksumBytes p.bytes ++ p.bytes) ∧
    (spelling p.toText).length = 8 * (p.bytes.length + 4) ⌈/⌉ 5 ∧
    ∀ text, text = p.toText ↔ Grouped text ∧ spelling text = spelling p.toText := by
  refine ⟨p.grouped_toText, p.spelling_toText, Base32.spells_iff.mpr p.spelling_toText,
    p.length_spelling_toText, ?_⟩
  intro text
  constructor
  · rintro rfl
    exact ⟨p.grouped_toText, rfl⟩
  · rintro ⟨grouped, same⟩
    rw [grouped.eq_ofList, same, ← p.grouped_toText.eq_ofList]

/-- Ten symbols make two whole groups, and no dash follows the second. -/
example : toText ⟨[0x2a, 0x07], by decide⟩ = "wdlew-5bka4" := by
  cbv

end Principal
end Certified
