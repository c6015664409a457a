import Certified.Proofs.Cbor.Reading
import Certified.Proofs.Cbor.RoundTrip
import Certified.Proofs.Cbor.Tags

/-!
The grammar of data items: all the byte strings that spell an item, with any width of numbers and lengths, with
definite and indefinite lengths, and with any tags, which belong to the item. A reader returns exactly what is
spelled, without the tags.
-/

namespace Certified.Cbor

open Item

/-- The initial byte of a major type and what it announces: a number in its low bits, or in the one, two, four
or eight bytes after it. -/
inductive Head (major n : Nat) : Bytes → Prop where
  | short {b : UInt8} (small : n < 24) (initial : b.toNat = 32 * major + n) : Head major n [b]
  | long {b : UInt8} {digits : Bytes} {width : Nat} (wide : width < 4)
    (initial : b.toNat = 32 * major + (24 + width)) (count : digits.length = 1 <<< width)
    (value : Bytes.toNatBE digits = n) : Head major n (b :: digits)

/-- The bytes spell the values, one after the other. -/
inductive Sequence {α : Type} (spells : Bytes → α → Prop) : Bytes → List α → Prop where
  | nil : Sequence spells [] []
  | cons {first rest : Bytes} {value : α} {values : List α} (one : spells first value)
    (others : Sequence spells rest values) : Sequence spells (first ++ rest) (value :: values)

/-- A string of a major type with its length before it. -/
def Piece (major : Nat) (bytes value : Bytes) : Prop :=
  ∃ head, Head major value.length head ∧ bytes = head ++ value

/-- A key and its value. -/
def Paired (spells : Bytes → Item → Prop) (bytes : Bytes) (entry : Item × Item) : Prop :=
  ∃ key value, spells key entry.1 ∧ spells value entry.2 ∧ bytes = key ++ value

/-- The bytes spell the item if those of the items that are nested in it do, or they spell an item in which
nothing is nested. -/
inductive SpellsWith (nested : Option (Bytes → Item → Prop)) : Bytes → Item → Prop where
  | unsigned {n : Nat} {head : Bytes} (number : Head 0 n head) : SpellsWith nested head (.integer n)
  | negative {n : Nat} {head : Bytes} (number : Head 1 n head) : SpellsWith nested head (.integer (-1 - n))
  | bytes {whole value : Bytes} (piece : Piece 2 whole value) : SpellsWith nested whole (.bytes value)
  | bytesInPieces {body : Bytes} {values : List Bytes} (pieces : Sequence (Piece 2) body values) :
    SpellsWith nested (0x5f :: (body ++ [0xff])) (.bytes values.flatten)
  | text {whole : Bytes} {value : String} (piece : Piece 3 whole (Bytes.ofText value)) :
    SpellsWith nested whole (.text value)
  | textInPieces {body : Bytes} {values : List Bytes} {value : String}
    (pieces : Sequence (Piece 3) body values) (same : values.flatten = Bytes.ofText value) :
    SpellsWith nested (0x7f :: (body ++ [0xff])) (.text value)
  | array {spells : Bytes → Item → Prop} {head body : Bytes} {items : List Item}
    (inside : nested = some spells) (count : Head 4 items.length head)
    (parts : Sequence spells body items) : SpellsWith nested (head ++ body) (.array items)
  | arrayToBreak {spells : Bytes → Item → Prop} {body : Bytes} {items : List Item}
    (inside : nested = some spells) (parts : Sequence spells body items) :
    SpellsWith nested (0x9f :: (body ++ [0xff])) (.array items)
  | map {spells : Bytes → Item → Prop} {head body : Bytes} {entries : List (Item × Item)}
    (inside : nested = some spells) (count : Head 5 entries.length head)
    (parts : Sequence (Paired spells) body entries) : SpellsWith nested (head ++ body) (.map entries)
  | mapToBreak {spells : Bytes → Item → Prop} {body : Bytes} {entries : List (Item × Item)}
    (inside : nested = some spells) (parts : Sequence (Paired spells) body entries) :
    SpellsWith nested (0xbf :: (body ++ [0xff])) (.map entries)
  | tag {spells : Bytes → Item → Prop} {head body : Bytes} {number : Nat} {item : Item}
    (inside : nested = some spells) (announced : Head 6 number head) (content : spells body item) :
    SpellsWith nested (head ++ body) (.tag number item)
  | false : SpellsWith nested [0xf4] (.bool false)
  | true : SpellsWith nested [0xf5] (.bool true)
  | null : SpellsWith nested [0xf6] .null
  | undefined : SpellsWith nested [0xf7] .null
  | half {value : Bytes} (two : value.length = 2) : SpellsWith nested (0xf9 :: value) (.float value)
  | single {value : Bytes} (four : value.length = 4) : SpellsWith nested (0xfa :: value) (.float value)
  | double {value : Bytes} (eight : value.length = 8) : SpellsWith nested (0xfb :: value) (.float value)

/-- The bytes spell the item, in which at most `depth` arrays, maps and tags are open at once. -/
def Spells : (depth : Nat) → Bytes → Item → Prop
  | 0 => SpellsWith none
  | depth + 1 => SpellsWith (some (Spells depth))

/-- The bytes spell an item that is this one without its tags. -/
def SpellsUntagged (spells : Bytes → Item → Prop) (bytes : Bytes) (item : Item) : Prop :=
  ∃ tagged, spells bytes tagged ∧ tagged.stripTags = item

/-- What is read is spelled by the bytes that were taken. -/
def Sound {α : Type} (spells : Bytes → α → Prop) (read : Reader α) : Prop :=
  ∀ bytes value rest, read bytes = .ok (value, rest) → ∃ front, bytes = front ++ rest ∧ spells front value

/-- What is spelled is read, whatever follows it. -/
def Complete {α : Type} (spells : Bytes → α → Prop) (read : Reader α) : Prop :=
  ∀ front value rest, spells front value → read (front ++ rest) = .ok (value, rest)

section Sequences

variable {α β : Type} {spells : Bytes → α → Prop} {spells' : Bytes → β → Prop} {bytes : Bytes}

theorem Sequence.map {f : α → β} (h : ∀ bytes value, spells bytes value → spells' bytes (f value))
    {values : List α} (s : Sequence spells bytes values) : Sequence spells' bytes (values.map f) := by
  induction s with
  | nil => exact .nil
  | cons one _ ih => exact .cons (h _ _ one) ih

theorem Sequence.mono {spells' : Bytes → α → Prop} (h : ∀ bytes value, spells bytes value → spells' bytes value)
    {values : List α} (s : Sequence spells bytes values) : Sequence spells' bytes values := by
  have mapped := s.map (f := id) h
  rwa [List.map_id] at mapped

theorem Sequence.exists_map {f : α → β}
    (h : ∀ bytes value, spells' bytes value → ∃ source, spells bytes source ∧ f source = value)
    {values : List β} (s : Sequence spells' bytes values) :
    ∃ sources, Sequence spells bytes sources ∧ sources.map f = values := by
  induction s with
  | nil => exact ⟨[], .nil, rfl⟩
  | cons one _ ih =>
    obtain ⟨source, spelled, rfl⟩ := h _ _ one
    obtain ⟨sources, others, rfl⟩ := ih
    exact ⟨source :: sources, .cons spelled others, rfl⟩

variable {read : Reader α}

theorem Sound.readMany (sound : Sound spells read) {count : Nat} {values : List α} {rest : Bytes}
    (h : readMany read count bytes = .ok (values, rest)) :
    ∃ front, bytes = front ++ rest ∧ Sequence spells front values ∧ values.length = count := by
  induction count generalizing bytes values with
  | zero =>
    cases h
    exact ⟨[], rfl, .nil, rfl⟩
  | succ count ih =>
    obtain ⟨⟨first, next⟩, one, h⟩ := bind_eq_ok_iff.mp h
    obtain ⟨⟨others, last⟩, many, h⟩ := bind_eq_ok_iff.mp h
    cases h
    obtain ⟨front, rfl, spelled⟩ := sound _ _ _ one
    obtain ⟨back, rfl, all, length⟩ := ih many
    exact ⟨front ++ back, (List.append_assoc _ _ _).symm, .cons spelled all, by simp [length]⟩

theorem Complete.readMany (complete : Complete spells read) {values : List α}
    (s : Sequence spells bytes values) (rest : Bytes) :
    readMany read values.length (bytes ++ rest) = .ok (values, rest) := by
  induction s with
  | nil => rfl
  | cons one _ ih =>
    rw [List.length_cons, Cbor.readMany, List.append_assoc, complete _ _ _ one]
    simp only [ok_bind, ih, pure_eq_ok]

theorem Sound.readToBreak (sound : Sound spells read) {atEnd : ReadError} {fuel : Nat} {values : List α}
    {rest : Bytes} (h : readToBreak atEnd read fuel bytes = .ok (values, rest)) :
    ∃ front, bytes = front ++ 0xff :: rest ∧ Sequence spells front values := by
  induction fuel generalizing bytes values with
  | zero => cases h
  | succ fuel ih =>
    cases bytes with
    | nil => cases h
    | cons b bytes =>
      rw [Cbor.readToBreak] at h
      split at h
      · rename_i ends
        cases h
        exact ⟨[], by rw [ends, List.nil_append], .nil⟩
      · obtain ⟨⟨first, next⟩, one, h⟩ := bind_eq_ok_iff.mp h
        obtain ⟨⟨others, last⟩, many, h⟩ := bind_eq_ok_iff.mp h
        cases h
        obtain ⟨front, same, spelled⟩ := sound _ _ _ one
        obtain ⟨back, rfl, all⟩ := ih many
        exact ⟨front ++ back, by rw [same, List.append_assoc], .cons spelled all⟩

/-- What spells a value does not start as the end of a sequence does. -/
def Starts (spells : Bytes → α → Prop) : Prop :=
  ∀ bytes value, spells bytes value → ∃ b rest, bytes = b :: rest ∧ b ≠ 0xff

theorem Complete.readToBreak (complete : Complete spells read) (starts : Starts spells)
    (atEnd : ReadError) {values : List α} (s : Sequence spells bytes values) {fuel : Nat}
    (enough : bytes.length < fuel) (rest : Bytes) :
    readToBreak atEnd read fuel (bytes ++ 0xff :: rest) = .ok (values, rest) := by
  induction s generalizing fuel with
  | nil =>
    obtain ⟨fuel, rfl⟩ := Nat.exists_eq_succ_of_ne_zero (Nat.ne_zero_of_lt enough)
    rfl
  | @cons first others value values one s ih =>
    obtain ⟨fuel, rfl⟩ := Nat.exists_eq_succ_of_ne_zero (Nat.ne_zero_of_lt enough)
    have here := complete _ _ (others ++ 0xff :: rest) one
    obtain ⟨b, more, rfl, goesOn⟩ := starts _ _ one
    rw [List.length_append, List.length_cons] at enough
    have later : Cbor.readToBreak atEnd read fuel (others ++ 0xff :: rest) = .ok (values, rest) := ih (by omega)
    rw [List.append_assoc, List.cons_append, Cbor.readToBreak, if_neg goesOn, ← List.cons_append, here]
    simp only [ok_bind, later, pure_eq_ok]

end Sequences

section Heads

variable {total major n : Nat} {bytes rest head : Bytes} {b : UInt8}

theorem eq_of_readBytes {count : Nat} {value : Bytes}
    (h : readBytes total count bytes = .ok (value, rest)) :
    bytes = value ++ rest ∧ value.length = count := by
  unfold readBytes at h
  split at h
  · rename_i enough
    cases h
    exact ⟨(List.take_append_drop _ _).symm, by simp [enough]⟩
  · cases h

/-- What is announced is in the low bits of the initial byte or in the bytes that are taken for it. -/
theorem head_of_readArgument (initial : b.toNat / 32 = major)
    (h : readArgument total (b.toNat % 32) bytes = .ok (some n, rest)) :
    ∃ digits, bytes = digits ++ rest ∧ Head major n (b :: digits) := by
  have := b.toNat_lt
  unfold readArgument at h
  split at h
  · rename_i small
    cases h
    exact ⟨[], rfl, .short small (by omega)⟩
  split at h
  · obtain ⟨⟨digits, after⟩, read, h⟩ := bind_eq_ok_iff.mp h
    cases h
    obtain ⟨rfl, count⟩ := eq_of_readBytes read
    exact ⟨digits, rfl, .long (by omega) (by omega) count rfl⟩
  split at h <;> cases h

/-- All low bits are set where the length is indefinite. -/
theorem initial_of_readArgument (initial : b.toNat / 32 = major)
    (h : readArgument total (b.toNat % 32) bytes = .ok (none, rest)) :
    bytes = rest ∧ b = UInt8.ofNat (32 * major + 31) := by
  have := b.toNat_lt
  unfold readArgument at h
  split at h
  · cases h
  split at h
  · obtain ⟨⟨digits, after⟩, read, h⟩ := bind_eq_ok_iff.mp h
    cases h
  split at h
  · cases h
  · cases h
    refine ⟨rfl, UInt8.toNat_inj.mp ?_⟩
    rw [UInt8.toNat_ofNat']
    omega

/-- A head is read back, and it does not say that the length is indefinite. -/
theorem Head.exists_initial (h : Head major n head) :
    ∃ b digits, head = b :: digits ∧ b.toNat / 32 = major ∧ b.toNat % 32 < 28 ∧
      ∀ total rest, readArgument total (b.toNat % 32) (digits ++ rest) = .ok (some n, rest) := by
  cases h with
  | @short b small initial =>
    refine ⟨b, [], rfl, by omega, by omega, ?_⟩
    intro total rest
    have info : b.toNat % 32 = n := by omega
    rw [readArgument, info, if_pos small, List.nil_append]
  | @long b digits width wide initial count value =>
    refine ⟨b, digits, rfl, by omega, by omega, ?_⟩
    intro total rest
    have info : b.toNat % 32 = 24 + width := by omega
    have read := readBytes_append total digits rest
    rw [count] at read
    rw [info, readArgument, if_neg (by omega), if_pos (by omega), Nat.add_sub_cancel_left, read]
    simp only [ok_bind, value, pure_eq_ok]

theorem Head.isHead (h : Head major n head) : IsHead major n head := by
  obtain ⟨b, digits, same, initial, _, read⟩ := h.exists_initial
  exact ⟨b, digits, same, initial, read⟩

theorem Head.starts (h : Head major n head) (low : major < 7) (rest : Bytes) :
    ∃ b more, head ++ rest = b :: more ∧ b ≠ 0xff := by
  obtain ⟨b, digits, rfl, initial, _⟩ := h.exists_initial
  refine ⟨b, digits ++ rest, rfl, ?_⟩
  intro same
  subst same
  have seven : (0xff : UInt8).toNat / 32 = 7 := rfl
  omega

/-- Eight bytes are the most that a number has. -/
theorem Head.lt_size (h : Head major n head) : n < UInt64.size := by
  cases h with
  | short small => exact Nat.lt_trans small (by decide)
  | @long b digits width wide initial count value =>
    subst value
    have bound := Bytes.toNatBE_lt digits
    have few : digits.length ≤ 8 := by
      rw [count]
      have : width = 0 ∨ width = 1 ∨ width = 2 ∨ width = 3 := by omega
      rcases this with rfl | rfl | rfl | rfl <;> decide
    exact Nat.lt_of_lt_of_le bound (Nat.pow_le_pow_right (by omega) few)

end Heads

section Strings

variable {major total : Nat}

theorem sound_readChunk : Sound (Piece major) (readChunk total major) := by
  intro bytes value rest h
  cases bytes with
  | nil => cases h
  | cons b bytes =>
    rw [readChunk] at h
    split at h
    · rename_i initial
      obtain ⟨initial, definite⟩ := initial
      obtain ⟨⟨argument, after⟩, announced, content⟩ := bind_eq_ok_iff.mp h
      cases argument with
      | none =>
        obtain ⟨_, same⟩ := initial_of_readArgument initial announced
        rw [same, UInt8.toNat_ofNat'] at definite
        have := b.toNat_lt
        omega
      | some n =>
        obtain ⟨digits, rfl, head⟩ := head_of_readArgument initial announced
        obtain ⟨rfl, rfl⟩ := eq_of_readBytes content
        exact ⟨b :: digits ++ value, by simp, _, head, rfl⟩
    · cases h

theorem complete_readChunk : Complete (Piece major) (readChunk total major) := by
  intro front value rest piece
  obtain ⟨head, announced, rfl⟩ := piece
  obtain ⟨b, digits, rfl, initial, definite, read⟩ := announced.exists_initial
  rw [List.cons_append, List.cons_append, readChunk, if_pos ⟨initial, definite⟩, List.append_assoc, read]
  exact readBytes_append total value rest

theorem starts_piece (low : major < 7) : Starts (Piece major) := by
  intro bytes value piece
  obtain ⟨head, announced, rfl⟩ := piece
  exact announced.starts low value

theorem eq_of_readText {bytes after rest : Bytes} {item : Item}
    (h : readText total bytes after = .ok (item, rest)) :
    ∃ value, item = .text value ∧ bytes = Bytes.ofText value ∧ after = rest := by
  have whole := Utf8.eq_append_of_split bytes
  rw [readText] at h
  split at h
  · rename_i chars valid
    cases h
    rw [valid, List.append_nil] at whole
    exact ⟨_, rfl, by rw [whole, Bytes.ofText_ofList], rfl⟩
  · cases h

theorem readText_ofText (value : String) (rest : Bytes) :
    readText total (Bytes.ofText value) rest = .ok (.text value, rest) := by
  simp [readText, Bytes.ofText, Utf8.split_encoded]

end Strings

section Entries

variable {spells : Bytes → Item → Prop} {read : Reader Item}

theorem Sound.readEntry (sound : Sound spells read) :
    Sound (Paired spells) (readItemWith.readEntry read) := by
  intro bytes entry rest h
  obtain ⟨⟨key, next⟩, first, h⟩ := bind_eq_ok_iff.mp h
  obtain ⟨⟨value, last⟩, second, h⟩ := bind_eq_ok_iff.mp h
  cases h
  obtain ⟨front, rfl, spelledKey⟩ := sound _ _ _ first
  obtain ⟨back, rfl, spelledValue⟩ := sound _ _ _ second
  exact ⟨front ++ back, (List.append_assoc _ _ _).symm, front, back, spelledKey, spelledValue, rfl⟩

theorem Complete.readEntry (complete : Complete spells read) :
    Complete (Paired spells) (readItemWith.readEntry read) := by
  intro front entry rest paired
  obtain ⟨key, value, spelledKey, spelledValue, rfl⟩ := paired
  rw [readItemWith.readEntry, List.append_assoc, complete _ _ _ spelledKey]
  simp only [ok_bind, complete _ _ _ spelledValue, pure_eq_ok]

theorem Paired.mono {outer : Bytes → Item → Prop} (le : ∀ bytes item, spells bytes item → outer bytes item)
    {bytes : Bytes} {entry : Item × Item} (h : Paired spells bytes entry) : Paired outer bytes entry := by
  obtain ⟨key, value, spelledKey, spelledValue, same⟩ := h
  exact ⟨key, value, le _ _ spelledKey, le _ _ spelledValue, same⟩

theorem Starts.paired (starts : Starts spells) : Starts (Paired spells) := by
  intro bytes entry paired
  obtain ⟨key, value, spelledKey, _, rfl⟩ := paired
  obtain ⟨b, more, rfl, goesOn⟩ := starts _ _ spelledKey
  exact ⟨b, more ++ value, rfl, goesOn⟩

end Entries

section Untagged

variable {spells : Bytes → Item → Prop} {bytes : Bytes}

theorem Sequence.untagged {items : List Item} (s : Sequence spells bytes items) :
    Sequence (SpellsUntagged spells) bytes (stripTagsAll items) := by
  rw [stripTagsAll_eq_map]
  exact s.map fun _ item spelled => ⟨item, spelled, rfl⟩

theorem Sequence.exists_tagged {items : List Item} (s : Sequence (SpellsUntagged spells) bytes items) :
    ∃ tagged, Sequence spells bytes tagged ∧ stripTagsAll tagged = items := by
  obtain ⟨tagged, spelled, same⟩ := s.exists_map fun _ _ spelled => spelled
  exact ⟨tagged, spelled, (stripTagsAll_eq_map tagged).trans same⟩

theorem Sequence.untagged_entries {entries : List (Item × Item)} (s : Sequence (Paired spells) bytes entries) :
    Sequence (Paired (SpellsUntagged spells)) bytes (stripTagsEntries entries) := by
  rw [stripTagsEntries_eq_map]
  refine s.map fun _ entry paired => ?_
  obtain ⟨key, value, spelledKey, spelledValue, rfl⟩ := paired
  exact ⟨key, value, ⟨_, spelledKey, rfl⟩, ⟨_, spelledValue, rfl⟩, rfl⟩

theorem Sequence.exists_tagged_entries {entries : List (Item × Item)}
    (s : Sequence (Paired (SpellsUntagged spells)) bytes entries) :
    ∃ tagged, Sequence (Paired spells) bytes tagged ∧ stripTagsEntries tagged = entries := by
  have source : ∀ bytes entry, Paired (SpellsUntagged spells) bytes entry →
      ∃ tagged, Paired spells bytes tagged ∧ (tagged.1.stripTags, tagged.2.stripTags) = entry := by
    intro bytes entry paired
    obtain ⟨key, value, ⟨k, spelledKey, sameKey⟩, ⟨v, spelledValue, sameValue⟩, rfl⟩ := paired
    exact ⟨(k, v), ⟨key, value, spelledKey, spelledValue, rfl⟩, by rw [sameKey, sameValue]⟩
  obtain ⟨tagged, spelled, same⟩ := s.exists_map source
  exact ⟨tagged, spelled, (stripTagsEntries_eq_map tagged).trans same⟩

theorem Sound.readItems {read : Reader Item} (sound : Sound (SpellsUntagged spells) read) {count : Nat}
    {items : List Item} {rest : Bytes} (h : Cbor.readMany read count bytes = .ok (items, rest)) :
    ∃ body tagged, bytes = body ++ rest ∧ Sequence spells body tagged ∧ stripTagsAll tagged = items ∧
      tagged.length = count := by
  obtain ⟨body, same, parts, rfl⟩ := sound.readMany h
  obtain ⟨tagged, spelled, rfl⟩ := parts.exists_tagged
  exact ⟨body, tagged, same, spelled, rfl, by rw [stripTagsAll_eq_map, List.length_map]⟩

theorem Sound.readEntries {read : Reader Item} (sound : Sound (SpellsUntagged spells) read) {count : Nat}
    {entries : List (Item × Item)} {rest : Bytes}
    (h : Cbor.readMany (readItemWith.readEntry read) count bytes = .ok (entries, rest)) :
    ∃ body tagged, bytes = body ++ rest ∧ Sequence (Paired spells) body tagged ∧
      stripTagsEntries tagged = entries ∧ tagged.length = count := by
  obtain ⟨body, same, parts, rfl⟩ := sound.readEntry.readMany h
  obtain ⟨tagged, spelled, rfl⟩ := parts.exists_tagged_entries
  exact ⟨body, tagged, same, spelled, rfl, by rw [stripTagsEntries_eq_map, List.length_map]⟩

theorem Complete.readItems {read : Reader Item} (complete : Complete (SpellsUntagged spells) read)
    {items : List Item} (s : Sequence spells bytes items) (rest : Bytes) :
    Cbor.readMany read items.length (bytes ++ rest) = .ok (stripTagsAll items, rest) := by
  have many := complete.readMany s.untagged rest
  rwa [stripTagsAll_eq_map, List.length_map, ← stripTagsAll_eq_map] at many

theorem Complete.readEntries {read : Reader Item} (complete : Complete (SpellsUntagged spells) read)
    {entries : List (Item × Item)} (s : Sequence (Paired spells) bytes entries) (rest : Bytes) :
    Cbor.readMany (readItemWith.readEntry read) entries.length (bytes ++ rest) =
      .ok (stripTagsEntries entries, rest) := by
  have many := complete.readEntry.readMany s.untagged_entries rest
  rwa [stripTagsEntries_eq_map, List.length_map, ← stripTagsEntries_eq_map] at many

end Untagged

section Items

variable {total : Nat} {nested : Option (Reader Item)} {spells : Option (Bytes → Item → Prop)}

theorem spells_of_readSimple (spells : Option (Bytes → Item → Prop)) {b : UInt8} {bytes rest : Bytes} {item : Item} (seven : b.toNat / 32 = 7)
    (h : readSimple total (b.toNat % 32) bytes = .ok (item, rest)) :
    ∃ front, bytes = front ++ rest ∧ SpellsWith spells (b :: front) item ∧ item.stripTags = item := by
  have initial {info : Nat} (same : b.toNat % 32 = info) (bound : info < 32) :
      b = UInt8.ofNat (224 + info) := by
    apply UInt8.toNat_inj.mp
    rw [UInt8.toNat_ofNat']
    omega
  unfold readSimple at h
  split at h
  case h_1 same =>
    cases h
    exact ⟨[], rfl, initial same (by omega) ▸ .false, rfl⟩
  case h_2 same =>
    cases h
    exact ⟨[], rfl, initial same (by omega) ▸ .true, rfl⟩
  case h_3 same =>
    cases h
    exact ⟨[], rfl, initial same (by omega) ▸ .null, rfl⟩
  case h_4 same =>
    cases h
    exact ⟨[], rfl, initial same (by omega) ▸ .undefined, rfl⟩
  case h_5 same =>
    obtain ⟨⟨value, after⟩, read, h⟩ := bind_eq_ok_iff.mp h
    cases h
    obtain ⟨rfl, length⟩ := eq_of_readBytes read
    exact ⟨value, rfl, initial same (by omega) ▸ .half length, rfl⟩
  case h_6 same =>
    obtain ⟨⟨value, after⟩, read, h⟩ := bind_eq_ok_iff.mp h
    cases h
    obtain ⟨rfl, length⟩ := eq_of_readBytes read
    exact ⟨value, rfl, initial same (by omega) ▸ .single length, rfl⟩
  case h_7 same =>
    obtain ⟨⟨value, after⟩, read, h⟩ := bind_eq_ok_iff.mp h
    cases h
    obtain ⟨rfl, length⟩ := eq_of_readBytes read
    exact ⟨value, rfl, initial same (by omega) ▸ .double length, rfl⟩
  case h_8 | h_9 => cases h

/-- Where nested items are read, they may be spelled. -/
theorem exists_sound_nested {after : Bytes} {α : Type} {f : Reader Item → Except ReadError α} {result : α}
    (h : ((match nested with
      | some read => Except.ok read
      | none => fail total .tooDeep after) >>= f) = .ok result)
    (sound : ∀ read, nested = some read → ∃ inner, spells = some inner ∧ Sound (SpellsUntagged inner) read) :
    ∃ read inner, spells = some inner ∧ Sound (SpellsUntagged inner) read ∧ f read = .ok result := by
  obtain ⟨read, here, content⟩ := exists_nested h
  obtain ⟨inner, inside, soundInside⟩ := sound read here
  exact ⟨read, inner, inside, soundInside, content⟩

/-- What is read with nested items that are spelled is spelled with them. The cases are those of the initial
byte. -/
theorem Sound.readItemWith (sound : ∀ read, nested = some read →
      ∃ inner, spells = some inner ∧ Sound (SpellsUntagged inner) read) :
    Sound (SpellsUntagged (SpellsWith spells)) (readItemWith total nested) := by
  intro bytes item rest h
  cases bytes with
  | nil => cases h
  | cons b bytes =>
    simp only [Cbor.readItemWith] at h
    split at h
    · rename_i seven
      obtain ⟨front, rfl, spelled, same⟩ := spells_of_readSimple spells seven h
      exact ⟨b :: front, rfl, item, spelled, same⟩
    obtain ⟨⟨argument, after⟩, announced, content⟩ := bind_eq_ok_iff.mp h
    simp only at content
    split at content
    case h_1 n initial =>
      cases content
      obtain ⟨digits, rfl, head⟩ := head_of_readArgument initial announced
      exact ⟨b :: digits, rfl, _, .unsigned head, rfl⟩
    case h_2 n initial =>
      cases content
      obtain ⟨digits, rfl, head⟩ := head_of_readArgument initial announced
      exact ⟨b :: digits, rfl, _, .negative head, rfl⟩
    case h_3 length initial =>
      obtain ⟨⟨value, last⟩, read, content⟩ := bind_eq_ok_iff.mp content
      cases content
      obtain ⟨digits, rfl, head⟩ := head_of_readArgument initial announced
      obtain ⟨rfl, rfl⟩ := eq_of_readBytes read
      exact ⟨b :: digits ++ value, by simp, _, .bytes ⟨_, head, rfl⟩, rfl⟩
    case h_4 initial =>
      obtain ⟨⟨values, last⟩, read, content⟩ := bind_eq_ok_iff.mp content
      cases content
      obtain ⟨rfl, rfl⟩ := initial_of_readArgument initial announced
      obtain ⟨body, rfl, pieces⟩ := sound_readChunk.readToBreak read
      exact ⟨0x5f :: (body ++ [0xff]), by simp, _, .bytesInPieces pieces, rfl⟩
    case h_5 length initial =>
      split at content
      · cases content
      obtain ⟨⟨value, last⟩, read, content⟩ := bind_eq_ok_iff.mp content
      obtain ⟨text, rfl, rfl, rfl⟩ := eq_of_readText content
      obtain ⟨digits, rfl, head⟩ := head_of_readArgument initial announced
      obtain ⟨rfl, rfl⟩ := eq_of_readBytes read
      exact ⟨b :: digits ++ Bytes.ofText text, by simp, _, .text ⟨_, head, rfl⟩, rfl⟩
    case h_6 initial =>
      obtain ⟨⟨values, last⟩, read, content⟩ := bind_eq_ok_iff.mp content
      obtain ⟨text, rfl, same, rfl⟩ := eq_of_readText content
      obtain ⟨rfl, rfl⟩ := initial_of_readArgument initial announced
      obtain ⟨body, rfl, pieces⟩ := sound_readChunk.readToBreak read
      exact ⟨0x7f :: (body ++ [0xff]), by simp, _, .textInPieces pieces same, rfl⟩
    case h_7 length initial =>
      obtain ⟨read, inner, inside, soundInside, content⟩ := exists_sound_nested content sound
      obtain ⟨⟨items, last⟩, many, content⟩ := bind_eq_ok_iff.mp content
      cases content
      obtain ⟨digits, rfl, head⟩ := head_of_readArgument initial announced
      obtain ⟨body, tagged, rfl, spelled, rfl, rfl⟩ := soundInside.readItems many
      exact ⟨b :: digits ++ body, by simp, _, .array inside head spelled, rfl⟩
    case h_8 initial =>
      obtain ⟨read, inner, inside, soundInside, content⟩ := exists_sound_nested content sound
      obtain ⟨⟨items, last⟩, many, content⟩ := bind_eq_ok_iff.mp content
      cases content
      obtain ⟨rfl, rfl⟩ := initial_of_readArgument initial announced
      obtain ⟨body, rfl, parts⟩ := soundInside.readToBreak many
      obtain ⟨tagged, spelled, rfl⟩ := parts.exists_tagged
      exact ⟨0x9f :: (body ++ [0xff]), by simp, _, .arrayToBreak inside spelled, rfl⟩
    case h_9 length initial =>
      obtain ⟨read, inner, inside, soundInside, content⟩ := exists_sound_nested content sound
      obtain ⟨⟨entries, last⟩, many, content⟩ := bind_eq_ok_iff.mp content
      cases content
      obtain ⟨digits, rfl, head⟩ := head_of_readArgument initial announced
      obtain ⟨body, tagged, rfl, spelled, rfl, rfl⟩ := soundInside.readEntries many
      exact ⟨b :: digits ++ body, by simp, _, .map inside head spelled, rfl⟩
    case h_10 initial =>
      obtain ⟨read, inner, inside, soundInside, content⟩ := exists_sound_nested content sound
      obtain ⟨⟨entries, last⟩, many, content⟩ := bind_eq_ok_iff.mp content
      cases content
      obtain ⟨rfl, rfl⟩ := initial_of_readArgument initial announced
      obtain ⟨body, rfl, parts⟩ := soundInside.readEntry.readToBreak many
      obtain ⟨tagged, spelled, rfl⟩ := parts.exists_tagged_entries
      exact ⟨0xbf :: (body ++ [0xff]), by simp, _, .mapToBreak inside spelled, rfl⟩
    case h_11 number initial =>
      obtain ⟨read, inner, inside, soundInside, content⟩ := exists_sound_nested content sound
      obtain ⟨digits, rfl, head⟩ := head_of_readArgument initial announced
      obtain ⟨body, rfl, tagged, spelled, rfl⟩ := soundInside _ _ _ content
      exact ⟨b :: digits ++ body, by simp, _, .tag inside head spelled, rfl⟩
    case h_12 => cases content

theorem starts_spellsWith : Starts (SpellsWith spells) := by
  intro bytes item spelled
  cases spelled with
  | unsigned number | negative number =>
    obtain ⟨b, more, same, goesOn⟩ := number.starts (by omega) []
    exact ⟨b, more, by rw [← same, List.append_nil], goesOn⟩
  | bytes piece | text piece => exact starts_piece (by omega) _ _ piece
  | array inside announced | map inside announced | tag inside announced =>
    exact announced.starts (by omega) _
  | bytesInPieces | textInPieces | arrayToBreak | mapToBreak => exact ⟨_, _, rfl, by decide⟩
  | false | true | null | undefined | half | single | double => exact ⟨_, _, rfl, by decide⟩

theorem Starts.untagged {spells : Bytes → Item → Prop} (starts : Starts spells) :
    Starts (SpellsUntagged spells) := by
  intro bytes item untagged
  obtain ⟨tagged, spelled, _⟩ := untagged
  exact starts _ _ spelled

/-- What follows the initial byte of an indefinite length is read up to the break. -/
theorem readItemWith_bytesToBreak (rest : Bytes) : readItemWith total nested (0x5f :: rest) =
    (readToBreak ⟨.endOfValue, total⟩ (readChunk total 2) rest.length rest >>= fun (pieces, rest) =>
      .ok (.bytes pieces.flatten, rest)) := rfl

theorem readItemWith_textToBreak (rest : Bytes) : readItemWith total nested (0x7f :: rest) =
    (readToBreak ⟨.endOfValue, total⟩ (readChunk total 3) rest.length rest >>= fun (pieces, rest) =>
      readText total pieces.flatten rest) := rfl

theorem readItemWith_arrayToBreak (read : Reader Item) (rest : Bytes) :
    readItemWith total (some read) (0x9f :: rest) =
      (readToBreak ⟨.endOfArray, total⟩ read rest.length rest >>= fun (items, rest) =>
        .ok (.array items, rest)) := rfl

theorem readItemWith_mapToBreak (read : Reader Item) (rest : Bytes) :
    readItemWith total (some read) (0xbf :: rest) =
      (readToBreak ⟨.endOfMap, total⟩ (readItemWith.readEntry read) rest.length rest >>=
        fun (entries, rest) => .ok (.map entries, rest)) := rfl

theorem readItemWith_initial_float {b : UInt8} {value rest : Bytes}
    (width : value.length = 2 ∨ value.length = 4 ∨ value.length = 8)
    (written : write (.float value) = b :: value) :
    readItemWith total nested (b :: value ++ rest) = .ok (.float value, rest) := by
  rw [← written]
  exact readItemWith_float width

/-- The last byte of an indefinite length stands before what follows. -/
theorem append_break (b : UInt8) (body rest : Bytes) :
    (b :: (body ++ [0xff])) ++ rest = b :: (body ++ 0xff :: rest) := by
  simp

/-- What is spelled with nested items that are read is read with them. -/
theorem Complete.readItemWith (bounded : total < UInt64.size) (complete : ∀ inner, spells = some inner →
      Starts inner ∧ ∃ read, nested = some read ∧ Complete (SpellsUntagged inner) read) :
    Complete (SpellsUntagged (SpellsWith spells)) (readItemWith total nested) := by
  intro front item rest untagged
  obtain ⟨tagged, spelled, rfl⟩ := untagged
  cases spelled with
  | unsigned number => exact readItemWith_unsigned number.isHead
  | negative number => exact readItemWith_negative number.isHead
  | bytes piece =>
    obtain ⟨head, announced, rfl⟩ := piece
    rw [List.append_assoc]
    exact readItemWith_bytes announced.isHead
  | bytesInPieces pieces =>
    rw [append_break, readItemWith_bytesToBreak,
      complete_readChunk.readToBreak (starts_piece (by omega)) _ pieces (by simp)]
    rfl
  | text piece =>
    obtain ⟨head, announced, rfl⟩ := piece
    rw [List.append_assoc]
    exact readItemWith_text announced.isHead bounded announced.lt_size
  | textInPieces pieces same =>
    rw [append_break, readItemWith_textToBreak,
      complete_readChunk.readToBreak (starts_piece (by omega)) _ pieces (by simp)]
    simp only [ok_bind, same, readText_ofText, stripTags]
  | array inside count parts =>
    obtain ⟨_, read, rfl, completeInside⟩ := complete _ inside
    rw [List.append_assoc]
    exact readItemWith_array count.isHead (completeInside.readItems parts rest)
  | arrayToBreak inside parts =>
    obtain ⟨starts, read, rfl, completeInside⟩ := complete _ inside
    rw [append_break, readItemWith_arrayToBreak,
      completeInside.readToBreak starts.untagged _ parts.untagged (by simp)]
    rfl
  | map inside count parts =>
    obtain ⟨_, read, rfl, completeInside⟩ := complete _ inside
    rw [List.append_assoc]
    exact readItemWith_map count.isHead (completeInside.readEntries parts rest)
  | mapToBreak inside parts =>
    obtain ⟨starts, read, rfl, completeInside⟩ := complete _ inside
    rw [append_break, readItemWith_mapToBreak,
      completeInside.readEntry.readToBreak starts.untagged.paired _ parts.untagged_entries (by simp)]
    rfl
  | tag inside announced content =>
    obtain ⟨_, read, rfl, completeInside⟩ := complete _ inside
    rw [List.append_assoc, readItemWith_tag announced.isHead]
    exact completeInside _ _ _ ⟨_, content, rfl⟩
  | false | true | null | undefined => rfl
  | half two => exact readItemWith_initial_float (.inl two) (by rw [write, if_pos two])
  | single four =>
    exact readItemWith_initial_float (.inr (.inl four)) (by rw [write, if_neg (by omega), if_pos four])
  | double eight =>
    exact readItemWith_initial_float (.inr (.inr eight))
      (by rw [write, if_neg (by omega), if_neg (by omega)])

/-- What is spelled is spelled also where more may be nested. -/
theorem SpellsWith.mono {more : Option (Bytes → Item → Prop)} {bytes : Bytes} {item : Item}
    (le : ∀ inner, spells = some inner → ∃ outer, more = some outer ∧ ∀ bytes item, inner bytes item → outer bytes item)
    (h : SpellsWith spells bytes item) : SpellsWith more bytes item := by
  cases h with
  | unsigned number => exact .unsigned number
  | negative number => exact .negative number
  | bytes piece => exact .bytes piece
  | bytesInPieces pieces => exact .bytesInPieces pieces
  | text piece => exact .text piece
  | textInPieces pieces same => exact .textInPieces pieces same
  | array inside count parts =>
    obtain ⟨outer, here, le⟩ := le _ inside
    exact .array here count (parts.mono le)
  | arrayToBreak inside parts =>
    obtain ⟨outer, here, le⟩ := le _ inside
    exact .arrayToBreak here (parts.mono le)
  | map inside count parts =>
    obtain ⟨outer, here, le⟩ := le _ inside
    exact .map here count (parts.mono fun _ _ paired => paired.mono le)
  | mapToBreak inside parts =>
    obtain ⟨outer, here, le⟩ := le _ inside
    exact .mapToBreak here (parts.mono fun _ _ paired => paired.mono le)
  | tag inside announced content =>
    obtain ⟨outer, here, le⟩ := le _ inside
    exact .tag here announced (le _ _ content)
  | false => exact .false
  | true => exact .true
  | null => exact .null
  | undefined => exact .undefined
  | half two => exact .half two
  | single four => exact .single four
  | double eight => exact .double eight

theorem Spells.succ {depth : Nat} {bytes : Bytes} {item : Item} (h : Spells depth bytes item) :
    Spells (depth + 1) bytes item := by
  induction depth generalizing bytes item with
  | zero =>
    apply SpellsWith.mono _ h
    nofun
  | succ depth ih =>
    apply SpellsWith.mono _ h
    intro inner inside
    cases inside
    exact ⟨_, rfl, fun _ _ => ih⟩

theorem Spells.mono {depth depth' : Nat} (le : depth ≤ depth') {bytes : Bytes} {item : Item}
    (h : Spells depth bytes item) : Spells depth' bytes item := by
  induction le with
  | refl => exact h
  | step _ ih => exact ih.succ

theorem starts_spells (depth : Nat) : Starts (Spells depth) := by
  cases depth with
  | zero => exact starts_spellsWith
  | succ depth => exact starts_spellsWith

theorem sound_readItem (total depth : Nat) : Sound (SpellsUntagged (Spells depth)) (readItem total depth) := by
  induction depth with
  | zero => exact Sound.readItemWith nofun
  | succ depth ih =>
    apply Sound.readItemWith
    intro read here
    cases here
    exact ⟨_, rfl, ih⟩

theorem complete_readItem (bounded : total < UInt64.size) (depth : Nat) :
    Complete (SpellsUntagged (Spells depth)) (readItem total depth) := by
  induction depth with
  | zero => exact Complete.readItemWith bounded nofun
  | succ depth ih =>
    apply Complete.readItemWith bounded
    intro inner inside
    cases inside
    exact ⟨starts_spells depth, _, rfl, ih⟩

/-- Bytes spell one item, its tags apart, however deep it is: a reader that follows as deep would return both.
Its count of the whole input is of no use here, so it is zero. -/
theorem Spells.unique {depth depth' : Nat} {bytes : Bytes} {item item' : Item} (h : Spells depth bytes item)
    (h' : Spells depth' bytes item') : item.stripTags = item'.stripTags := by
  have complete : Complete (SpellsUntagged (Spells (max depth depth'))) (readItem 0 (max depth depth')) :=
    complete_readItem (by decide) _
  have read := complete _ _ [] ⟨item, h.mono (Nat.le_max_left _ _), rfl⟩
  have read' := complete _ _ [] ⟨item', h'.mono (Nat.le_max_right _ _), rfl⟩
  have same := Except.ok.inj (read.symm.trans read')
  exact (Prod.mk.inj same).1

end Items

/-- The bytes carry the item, tags and all: they spell it no deeper than this, with or without the mark of CBOR
data before it. -/
inductive Carries (depth : Nat) : Bytes → Item → Prop where
  | marked {body : Bytes} {item : Item} (spelled : Spells depth body item) :
    Carries depth (selfDescribed ++ body) item
  | unmarked {body : Bytes} {item : Item} (plain : ¬ selfDescribed <+: body)
    (spelled : Spells depth body item) : Carries depth body item

theorem Carries.unique {depth depth' : Nat} {bytes : Bytes} {item item' : Item} (h : Carries depth bytes item)
    (h' : Carries depth' bytes item') : item.stripTags = item'.stripTags := by
  cases h with
  | @marked body _ spelled =>
    generalize same : selfDescribed ++ body = whole at h'
    cases h' with
    | marked spelled' =>
      obtain rfl := List.append_cancel_left same
      exact spelled.unique spelled'
    | unmarked plain _ => exact absurd ⟨body, same⟩ plain
  | unmarked plain spelled =>
    cases h' with
    | marked _ => exact absurd (List.prefix_append _ _) plain
    | unmarked _ spelled' => exact spelled.unique spelled'

/-- A byte string is read as a whole, after the mark if there is one. -/
theorem decode_eq_ok_iff_readItem {bytes : Bytes} {item : Item} :
    decode bytes = .ok item ↔ ∃ body,
      (bytes = selfDescribed ++ body ∨ ¬ selfDescribed <+: bytes ∧ bytes = body) ∧
        readItem body.length depthLimit body = .ok (item, []) := by
  have whole {read : Except ReadError (Item × Bytes)} {f : Item × Bytes → Except ReadError Item}
      (ends : ∀ item, f (item, []) = .ok item)
      (goesOn : ∀ item b rest, ∃ e, f (item, b :: rest) = .error e) :
      read >>= f = .ok item ↔ read = .ok (item, []) := by
    rw [bind_eq_ok_iff]
    constructor
    · intro h
      obtain ⟨⟨read, rest⟩, rfl, h⟩ := h
      cases rest with
      | nil =>
        obtain rfl := Except.ok.inj ((ends read).symm.trans h)
        rfl
      | cons b rest =>
        obtain ⟨e, refused⟩ := goesOn read b rest
        rw [refused] at h
        cases h
    · intro h
      exact ⟨_, h, ends item⟩
  have marked (body : Bytes) : decode (selfDescribed ++ body) = .ok item ↔
      readItem body.length depthLimit body = .ok (item, []) := by
    have isPrefix : selfDescribed.isPrefixOf (selfDescribed ++ body) = true :=
      List.isPrefixOf_iff_prefix.mpr (List.prefix_append _ _)
    simp only [decode, isPrefix, if_true, List.drop_left]
    exact whole (fun _ => rfl) fun _ _ _ => ⟨_, rfl⟩
  have unmarked (body : Bytes) (plain : ¬ selfDescribed <+: body) : decode body = .ok item ↔
      readItem body.length depthLimit body = .ok (item, []) := by
    have noPrefix : ¬ selfDescribed.isPrefixOf body = true := mt List.isPrefixOf_iff_prefix.mp plain
    simp only [decode, if_neg noPrefix]
    exact whole (fun _ => rfl) fun _ _ _ => ⟨_, rfl⟩
  constructor
  · intro h
    by_cases mark : selfDescribed <+: bytes
    · obtain ⟨body, rfl⟩ := mark
      exact ⟨body, .inl rfl, (marked body).mp h⟩
    · exact ⟨bytes, .inr ⟨mark, rfl⟩, (unmarked bytes mark).mp h⟩
  · intro h
    obtain ⟨body, rfl | ⟨plain, rfl⟩, read⟩ := h
    · exact (marked body).mpr read
    · exact (unmarked bytes plain).mpr read

theorem carries_of_decode {bytes : Bytes} {item : Item} (h : decode bytes = .ok item) :
    SpellsUntagged (Carries depthLimit) bytes item := by
  obtain ⟨body, place, found⟩ := decode_eq_ok_iff_readItem.mp h
  obtain ⟨front, same, tagged, spelled, stripped⟩ := sound_readItem _ _ _ _ _ found
  obtain rfl : body = front := by rw [same, List.append_nil]
  obtain rfl | ⟨plain, rfl⟩ := place
  · exact ⟨tagged, .marked spelled, stripped⟩
  · exact ⟨tagged, .unmarked plain spelled, stripped⟩

/-- What bytes carry in no more depth than a reader follows is read from them without its tags, if their length
can be counted in 64 bits. -/
theorem decode_of_carries {bytes : Bytes} {item : Item} (short : bytes.length < UInt64.size)
    (h : Carries depthLimit bytes item) : decode bytes = .ok item.stripTags := by
  have read {body : Bytes} (bounded : body.length < UInt64.size) (spelled : Spells depthLimit body item) :
      readItem body.length depthLimit body = .ok (item.stripTags, []) := by
    have read := complete_readItem bounded depthLimit body _ [] ⟨item, spelled, rfl⟩
    rwa [List.append_nil] at read
  rw [decode_eq_ok_iff_readItem]
  cases h with
  | @marked body _ spelled =>
    have bounded : body.length < UInt64.size := by
      rw [List.length_append] at short
      omega
    exact ⟨body, .inl rfl, read bounded spelled⟩
  | unmarked plain spelled => exact ⟨bytes, .inr ⟨plain, rfl⟩, read short spelled⟩

/-- A reader returns exactly the items that bytes carry, without their tags. -/
theorem decode_eq_ok_iff {bytes : Bytes} {item : Item} (short : bytes.length < UInt64.size) :
    decode bytes = .ok item ↔ SpellsUntagged (Carries depthLimit) bytes item := by
  constructor
  · intro h
    exact carries_of_decode h
  · intro h
    obtain ⟨tagged, carried, rfl⟩ := h
    exact decode_of_carries short carried

end Certified.Cbor
