import Certified.Blob
import Certified.Certificate.Encoding
import Certified.Proofs.Cbor.Heads
import Certified.Proofs.Certificate.Grammar
import Certified.Proofs.Hex
import Certified.Text.Lemmas

/-!
A file of bytes and a file of hexadecimal text are told apart. Trees and certificates begin with a byte that
is no digit and begins no blank but two, and behind these two blanks there is neither a tree nor a
certificate; hexadecimal text of either case gives the bytes that it spells.
-/

namespace Certified

open Cbor (Item)

namespace Text.Blank

/-- Among the characters of two bytes only U+0085 and U+00A0 are blank, and both begin with the same byte. -/
theorem bytes_of_isBlank {c : Char} {b : UInt8} {more : Bytes} (blank : isBlank c)
    (bytes : String.utf8EncodeChar c = b :: more) (high : 128 ≤ b.toNat) (low : b.toNat < 224) :
    b.toNat = 194 ∧ ∃ next, more = [next] ∧ (next.toNat = 133 ∨ next.toNat = 160) := by
  have kinds : c.val.toNat < 128 ∨ c.val.toNat = 133 ∨ c.val.toNat = 160 ∨ 2048 ≤ c.val.toNat := by
    simp only [isBlank, Char.toNat, Bool.or_eq_true, Bool.and_eq_true, decide_eq_true_eq, beq_iff_eq] at blank
    omega
  rw [String.utf8EncodeChar.eq_def] at bytes
  dsimp only at bytes
  split at bytes
  · obtain ⟨rfl, _⟩ := List.cons.inj bytes
    rw [UInt8.toNat_ofNat'] at high
    omega
  split at bytes
  · obtain ⟨rfl, rfl⟩ := List.cons.inj bytes
    simp only [UInt8.toNat_ofNat', List.cons.injEq, and_true, exists_eq_left']
    omega
  split at bytes
  all_goals
    obtain ⟨rfl, _⟩ := List.cons.inj bytes
    rw [UInt8.toNat_ofNat'] at low
    omega

end Text.Blank

/-- An array of at most three items, or a map with entries: what a tree or a certificate is read from. -/
inductive Cbor.Item.Composite : Item → Prop where
  | array {items : List Item} (few : items.length ≤ 3) : Composite (.array items)
  | map {entries : List (Item × Item)} (occupied : entries ≠ []) : Composite (.map entries)

open Cbor.Item

theorem HashTree.composite_of_ofItem {item : Item} {t : HashTree} (h : ofItem item = .ok t) :
    Composite item.untag := by
  have stripped := stripTags_of_ofItem h
  have few : ∃ parts : List Item, t.toItem = .array parts ∧ parts.length ≤ 3 := by
    cases t <;> exact ⟨_, rfl, by simp⟩
  obtain ⟨parts, made, few⟩ := few
  obtain ⟨items, array, same⟩ := stripTags_eq_array_iff.mp (stripped.trans made)
  rw [array]
  rw [← same, List.length_map] at few
  exact .array few

theorem Certificate.composite_of_ofItem {item : Item} {c : Certificate} (h : ofItem item = .ok c) :
    Composite item.untag := by
  obtain ⟨entries, map, spelled⟩ := ofItem_eq_ok_iff.mp h
  obtain ⟨value, ⟨before, after, split, _⟩, _⟩ := spelled.tree
  rw [map]
  refine .map ?_
  rw [split]
  exact List.append_ne_nil_of_right_ne_nil before (List.cons_ne_nil _ after)

namespace Cbor

theorem Item.Flat.not_composite {item : Item} (flat : item.Flat) : ¬ Composite item.untag := by
  intro composite
  cases item with
  | array | map | tag => exact flat
  | _ => cases composite

/-- Such an item begins with the byte of an array, a map or a tag. The two blanks would be a tag around five
items or around an empty map. -/
theorem initial_of_readItem {total depth : Nat} {b : UInt8} {bytes rest : Bytes} {item : Item}
    (h : readItem total depth (b :: bytes) = .ok (item, rest)) (composite : Composite item.untag) :
    128 ≤ b.toNat ∧ b.toNat < 224 ∧
      (b.toNat = 194 → ∀ next more, bytes = next :: more → next.toNat ≠ 133 ∧ next.toNat ≠ 160) := by
  have major : ¬ (b.toNat / 32 < 4 ∨ b.toNat / 32 = 7) :=
    fun other => (flat_of_readItem other h).not_composite composite
  have small : b.toNat < 256 := b.toNat_lt
  refine ⟨by omega, by omega, ?_⟩
  rintro tag next more rfl
  obtain ⟨depth, inside⟩ := readItem_of_tag (by decide : 2 < 24) tag h
  constructor
  · intro five
    obtain ⟨items, rfl, length⟩ := exists_array_of_readItem (by decide : 5 < 24) five inside
    cases composite with
    | array few => omega
  · intro none
    obtain ⟨entries, rfl, length⟩ := exists_map_of_readItem (by decide : 0 < 24) none inside
    cases composite with
    | map occupied => exact occupied (List.length_eq_zero_iff.mp length)

end Cbor

namespace Blob

open Text.Blank (isBlank trimChars)

/-- A text that begins with a character outside ASCII, and not with a blank, is not hexadecimal. -/
theorem decode_of_solid {c : Char} {b : UInt8} {more : Bytes} (encoded : String.utf8EncodeChar c = b :: more)
    (high : 128 ≤ b.toNat) (solid : ¬ isBlank c) (chars : List Char) :
    decode (Bytes.ofText (String.ofList (c :: chars))) = Bytes.ofText (String.ofList (c :: chars)) := by
  have notZero : '0' ≠ c := by
    rintro rfl
    cases encoded
    exact absurd high (by decide)
  obtain ⟨kept, trimmed⟩ := Text.Blank.exists_trimChars_cons solid chars
  have unmarked : ['0', 'x'].isPrefixOf? (c :: kept) = none := by
    simp [List.isPrefixOf?, notZero]
  have starts : Bytes.ofText (String.ofList (c :: kept)) =
      b :: (more ++ kept.flatMap String.utf8EncodeChar) := by
    rw [Bytes.ofText_ofList, List.flatMap_cons, encoded, List.cons_append]
  rw [decode, Utf8.decode?_eq_some_iff.mpr rfl]
  simp only [String.toList_ofList, trimmed, unmarked, Option.getD_none]
  split
  · rename_i bytes read
    exact absurd read (Hex.decode_ne_ok_of_head starts high)
  · rfl

/-- What begins with a byte outside ASCII, and not with one of the two blanks, stands for itself. -/
theorem decode_of_initial {b : UInt8} {rest : Bytes} (high : 128 ≤ b.toNat) (low : b.toNat < 224)
    (solid : b.toNat = 194 → ∀ next more, rest = next :: more → next.toNat ≠ 133 ∧ next.toNat ≠ 160) :
    decode (b :: rest) = b :: rest := by
  cases valid : Utf8.decode? (b :: rest) with
  | none => simp only [decode, valid]
  | some text =>
    have spelled := Utf8.decode?_eq_some_iff.mp valid
    obtain ⟨chars, rfl⟩ : ∃ chars, String.ofList chars = text := ⟨text.toList, String.ofList_toList⟩
    cases chars with
    | nil => cases spelled
    | cons c chars =>
      cases encoded : String.utf8EncodeChar c with
      | nil => simp at encoded
      | cons first more =>
        have bytes := spelled
        rw [Bytes.ofText_ofList, List.flatMap_cons, encoded, List.cons_append] at bytes
        obtain ⟨rfl, tail⟩ := List.cons.inj bytes
        rw [spelled]
        refine decode_of_solid encoded high ?_ chars
        intro blank
        obtain ⟨initial, next, rfl, blank⟩ := Text.Blank.bytes_of_isBlank blank encoded high low
        obtain ⟨notFirst, notSecond⟩ := solid initial next _ tail
        exact blank.elim notFirst notSecond

/-! ### Bytes that are a tree or a certificate -/

theorem decode_of_composite {content : Bytes} {item : Item} (read : decodeItem content = .ok item)
    (composite : Composite item.untag) : decode content = content := by
  have read := mapError_eq_ok_iff.mp read
  unfold Cbor.decode at read
  dsimp only at read
  obtain ⟨⟨value, left⟩, read, whole⟩ := bind_eq_ok_iff.mp read
  cases left with
  | cons => cases whole
  | nil =>
    cases whole
    split at read
    · rename_i marked
      obtain ⟨rest, rfl⟩ := List.isPrefixOf_iff_prefix.mp marked
      exact decode_of_initial (by decide) (by decide) fun tag => absurd tag (by decide)
    · cases content with
      | nil =>
        obtain ⟨nested, same⟩ := Cbor.exists_readItemWith ([] : Bytes).length Cbor.depthLimit
        rw [same] at read
        cases read
      | cons b rest =>
        obtain ⟨high, low, solid⟩ := Cbor.initial_of_readItem read composite
        exact decode_of_initial high low solid

theorem decode_of_tree {content : Bytes} {t : HashTree} (read : HashTree.decode content = .ok t) :
    decode content = content := by
  obtain ⟨item, spelled, shape⟩ := bind_eq_ok_iff.mp read
  exact decode_of_composite spelled (HashTree.composite_of_ofItem (mapError_eq_ok_iff.mp shape))

theorem decode_of_certificate {content : Bytes} {c : Certificate}
    (read : Certificate.decode content = .ok c) : decode content = content := by
  obtain ⟨item, spelled, shape⟩ := bind_eq_ok_iff.mp read
  exact decode_of_composite spelled (Certificate.composite_of_ofItem shape)

/-! ### Hexadecimal text -/

/-- The hexadecimal texts of bytes: two digits of either case for each byte, perhaps after `0x` and between
blanks. For no bytes at all only the empty text is one. -/
inductive HexText : List Char → Bytes → Prop where
  | empty : HexText [] []
  | spelled {before mark digits after : List Char} {bytes : Bytes} (occupied : bytes ≠ [])
    (leading : ∀ c ∈ before, isBlank c) (prefixed : mark = [] ∨ mark = ['0', 'x'])
    (spells : Hex.Spells digits bytes) (trailing : ∀ c ∈ after, isBlank c) :
    HexText (before ++ (mark ++ digits) ++ after) bytes

theorem hexText_encode (bytes : Bytes) : HexText (Hex.encode bytes).toList bytes := by
  rw [Hex.encode, String.toList_ofList]
  by_cases occupied : bytes = []
  · rw [occupied]
    exact .empty
  · have spelled : HexText ([] ++ ([] ++ Hex.digits bytes) ++ []) bytes :=
      .spelled occupied (List.forall_mem_nil _) (.inl rfl) (Hex.spells_digits bytes) (List.forall_mem_nil _)
    rwa [List.nil_append, List.nil_append, List.append_nil] at spelled

theorem not_isBlank_of_digit {c : Char} {n : Nat} (digit : Radix.digitOf? 16 c = some n) : ¬ isBlank c := by
  have bounds := Hex.bounds_of_digitOf? digit
  simp only [isBlank, Bool.or_eq_true, Bool.and_eq_true, decide_eq_true_eq, beq_iff_eq]
  omega

/-- Digits are not taken for a mark and digits. -/
theorem getD_isPrefixOf?_of_spells {mark digits : List Char} {bytes : Bytes}
    (prefixed : mark = [] ∨ mark = ['0', 'x']) (spelled : Hex.Spells digits bytes) :
    (['0', 'x'].isPrefixOf? (mark ++ digits)).getD (mark ++ digits) = digits := by
  rcases prefixed with rfl | rfl
  · have unmarked : ['0', 'x'].isPrefixOf? digits = none := by
      rw [Option.eq_none_iff_forall_ne_some]
      intro rest marked
      have same := List.isPrefixOf?_eq_some_iff_append_eq.mp marked
      have mem : 'x' ∈ digits := by simp [← same]
      obtain ⟨n, digit⟩ := spelled.digit_of_mem mem
      cases digit
    rw [List.nil_append, unmarked, Option.getD_none]
  · have marked : ['0', 'x'].isPrefixOf? (['0', 'x'] ++ digits) = some digits :=
      List.isPrefixOf?_eq_some_iff_append_eq.mpr rfl
    rw [marked, Option.getD_some]

theorem decode_of_hexText {chars : List Char} {bytes : Bytes} (h : HexText chars bytes) :
    decode (Bytes.ofText (String.ofList chars)) = bytes := by
  have text : Utf8.decode? (Bytes.ofText (String.ofList chars)) = some (String.ofList chars) :=
    Utf8.decode?_eq_some_iff.mpr rfl
  cases h with
  | empty =>
    rw [decode, text]
    rfl
  | @spelled before mark digits after _ occupied leading prefixed spelled trailing =>
    have long : digits ≠ [] := by
      intro none
      have length := spelled.length_eq
      rw [none, List.length_nil] at length
      exact occupied (List.length_eq_zero_iff.mp (by omega))
    have core : mark ++ digits ≠ [] := List.append_ne_nil_of_right_ne_nil mark long
    have first : ¬ isBlank ((mark ++ digits).head core) := by
      rcases prefixed with rfl | rfl
      · obtain ⟨n, digit⟩ := spelled.digit_of_mem (List.head_mem long)
        exact not_isBlank_of_digit digit
      · change ¬ isBlank '0'
        decide
    have last : ¬ isBlank ((mark ++ digits).getLast core) := by
      obtain ⟨n, digit⟩ := spelled.digit_of_mem (List.getLast_mem long)
      rw [List.getLast_append_of_ne_nil core long]
      exact not_isBlank_of_digit digit
    rw [decode, text]
    simp only [String.toList_ofList, Text.Blank.trimChars_append leading trailing core first last,
      getD_isPrefixOf?_of_spells prefixed spelled, Hex.decode_of_spells spelled,
      List.isEmpty_eq_false_iff.mpr long, Bool.false_eq_true, if_false]

/-- A hexadecimal text is longer than the bytes that it spells. -/
theorem HexText.length_lt {chars : List Char} {bytes : Bytes} (h : HexText chars bytes)
    (occupied : bytes ≠ []) : bytes.length < (Bytes.ofText (String.ofList chars)).length := by
  cases h with
  | empty => exact absurd rfl occupied
  | @spelled before mark digits after _ _ _ _ spelled _ =>
    have pos : 0 < bytes.length := List.length_pos_of_ne_nil occupied
    have bytes := Bytes.length_le_ofText (before ++ (mark ++ digits) ++ after)
    simp only [List.length_append, spelled.length_eq] at bytes
    omega

/-- The bytes are read as a tree or as a certificate. -/
def Readable (content : Bytes) : Prop :=
  (∃ t, HashTree.decode content = .ok t) ∨ ∃ c, Certificate.decode content = .ok c

theorem decode_of_readable {content : Bytes} (readable : Readable content) : decode content = content := by
  rcases readable with ⟨t, read⟩ | ⟨c, read⟩
  · exact decode_of_tree read
  · exact decode_of_certificate read

/-- Bytes that are a tree or a certificate stand for themselves, and every hexadecimal text of bytes stands
for these. So no file can be meant in both ways: the hexadecimal text of some bytes is itself neither a tree
nor a certificate. -/
theorem decode_faithful (bytes : Bytes) :
    (Readable bytes → decode bytes = bytes) ∧
    (∀ chars, HexText chars bytes → decode (Bytes.ofText (String.ofList chars)) = bytes) ∧
    ∀ chars, HexText chars bytes → bytes ≠ [] → ¬ Readable (Bytes.ofText (String.ofList chars)) := by
  refine ⟨decode_of_readable, fun chars => decode_of_hexText, ?_⟩
  intro chars text occupied readable
  have same : Bytes.ofText (String.ofList chars) = bytes :=
    (decode_of_readable readable).symm.trans (decode_of_hexText text)
  have longer := text.length_lt occupied
  rw [same] at longer
  exact absurd longer (lt_irrefl _)

namespace Sample

/-- The empty tree in a tag that is a character of UTF-8. -/
def content : Bytes := [0xc2, 0x81, 0x00]

theorem readable : Readable content :=
  .inl ⟨.empty, by decide +kernel⟩

/-- The digits of the bytes in both cases, after the mark and between the two blanks that begin with the
byte of this tag. -/
def chars : List Char := ['\u0085'] ++ (['0', 'x'] ++ ['C', '2', '8', '1', '0', '0']) ++ ['\u00a0', '\n']

theorem spells : Hex.Spells ['C', '2', '8', '1', '0', '0'] content := by
  rw [Hex.Spells]
  decide

theorem hexText : HexText chars content :=
  .spelled (by decide) (by simp [isBlank]) (.inr rfl) spells (by simp [isBlank])

end Sample

theorem decode_faithful_sample :
    Readable Sample.content ∧ HexText Sample.chars Sample.content ∧
    decode Sample.content = Sample.content ∧
    decode (Bytes.ofText (String.ofList Sample.chars)) = Sample.content ∧
    ¬ Readable (Bytes.ofText (String.ofList Sample.chars)) := by
  obtain ⟨raw, hex, apart⟩ := decode_faithful Sample.content
  exact ⟨Sample.readable, Sample.hexText, raw Sample.readable, hex Sample.chars Sample.hexText,
    apart Sample.chars Sample.hexText (by decide)⟩

end Blob
end Certified
