import Certified.LabelPath
import Certified.Proofs.Hex

/-!
A label reads back from its text, and a path from the texts of its labels. A text that would be taken for
something else is not written as it is: it has a slash or a blank, begins with a mark, or is empty.
-/

namespace Certified

namespace Text.Slashed

theorem segments_of_not_mem {piece : List Char} (whole : '/' ∉ piece) : segments piece = [piece] := by
  induction piece with
  | nil => rfl
  | cons c piece ih =>
    obtain ⟨first, rest⟩ := not_or.mp (mt List.mem_cons.mpr whole)
    rw [segments, if_neg (Ne.symm first), ih rest]

theorem segments_append {piece : List Char} (whole : '/' ∉ piece) (rest : List Char) :
    segments (piece ++ '/' :: rest) = piece :: segments rest := by
  induction piece with
  | nil => rfl
  | cons c piece ih =>
    obtain ⟨first, later⟩ := not_or.mp (mt List.mem_cons.mpr whole)
    rw [List.cons_append, segments, if_neg (Ne.symm first), ih later]

/-- Cutting undoes joining, of at least one piece. -/
theorem segments_intercalate {pieces : List (List Char)} (occupied : pieces ≠ [])
    (whole : ∀ piece ∈ pieces, '/' ∉ piece) :
    segments (List.intercalate ['/'] pieces) = pieces := by
  induction pieces with
  | nil => exact absurd rfl occupied
  | cons piece pieces ih =>
    obtain ⟨first, rest⟩ := List.forall_mem_cons.mp whole
    cases pieces with
    | nil => rw [List.intercalate_singleton, segments_of_not_mem first]
    | cons next pieces =>
      rw [List.intercalate_cons_cons, List.append_assoc, List.singleton_append, segments_append first,
        ih (List.cons_ne_nil next pieces) rest]

end Text.Slashed

namespace Label

/-- What lets a label stand as its own text. -/
structure Plain (label : Label) : Prop where
  occupied : label ≠ []
  plain : ∀ b ∈ label, isPlain b
  notHex : hexMark.isPrefixOf (label.map Hex.charOf) = false
  notPrincipal : principalMark.isPrefixOf (label.map Hex.charOf) = false

theorem toChars_of_plain {label : Label} (plain : label.Plain) :
    label.toChars = label.map Hex.charOf := by
  obtain ⟨occupied, printable, notHex, notPrincipal⟩ := plain
  refine if_pos ?_
  change (!label.isEmpty && label.all isPlain && !hexMark.isPrefixOf (label.map Hex.charOf) &&
    !principalMark.isPrefixOf (label.map Hex.charOf)) = true
  rw [notHex, notPrincipal, List.all_eq_true.mpr printable, List.isEmpty_eq_false_iff.mpr occupied]
  rfl

theorem toChars_of_not_plain {label : Label} (plain : ¬ label.Plain) :
    label.toChars = hexMark ++ Hex.digits label := by
  refine if_neg ?_
  intro all
  simp only [Bool.and_eq_true, Bool.not_eq_true', List.isEmpty_eq_false_iff, List.all_eq_true] at all
  obtain ⟨⟨⟨occupied, printable⟩, notHex⟩, notPrincipal⟩ := all
  exact plain ⟨occupied, printable, notHex, notPrincipal⟩

theorem lt_of_isPlain {b : UInt8} (plain : isPlain b) : b.toNat < 128 := by
  have le : b ≤ 0x7e := (of_decide_eq_true plain).2.1
  have := UInt8.le_iff_toNat_le.mp le
  exact Nat.lt_of_le_of_lt this (by decide)

theorem isPrefixOf?_of_isPrefixOf_eq_false {mark chars : List Char}
    (lacks : mark.isPrefixOf chars = false) : mark.isPrefixOf? chars = none := by
  rw [← List.isSome_isPrefixOf?_eq_isPrefixOf] at lacks
  exact Option.isNone_iff_eq_none.mp (Option.isSome_eq_false_iff.mp lacks)

theorem ofChars_of_plain {label : Label} (plain : label.Plain) :
    ofChars (label.map Hex.charOf) = .ok label := by
  have ascii : ∀ c ∈ label.map Hex.charOf, c.toNat < 128 := by
    intro c mem
    obtain ⟨b, held, rfl⟩ := List.mem_map.mp mem
    rw [Hex.toNat_charOf]
    exact lt_of_isPlain (plain.plain b held)
  have written : (label.map Hex.charOf).map Bytes.ofAscii = label := by
    rw [List.map_map]
    exact List.map_id'' Hex.ofAscii_charOf label
  rw [ofChars, isPrefixOf?_of_isPrefixOf_eq_false plain.notHex,
    isPrefixOf?_of_isPrefixOf_eq_false plain.notPrincipal, Bytes.ofText_ascii ascii, written]

theorem ofChars_hex (label : Label) : ofChars (hexMark ++ Hex.digits label) = .ok label := by
  have marked : hexMark.isPrefixOf? (hexMark ++ Hex.digits label) = some (Hex.digits label) :=
    List.isPrefixOf?_eq_some_iff_append_eq.mpr rfl
  have read : Hex.decode (String.ofList (Hex.digits label)) = .ok label := Hex.decode_encode label
  rw [ofChars, marked]
  simp only [read, mapError_ok]

theorem ofChars_toChars (label : Label) : ofChars label.toChars = .ok label := by
  by_cases plain : label.Plain
  · rw [toChars_of_plain plain, ofChars_of_plain plain]
  · rw [toChars_of_not_plain plain, ofChars_hex]

theorem ofText_toText (label : Label) : ofText label.toText = .ok label := by
  rw [ofText, toText, String.toList_ofList, ofChars_toChars]

/-- No label is written as nothing, so that a path of one label is told from the empty path. -/
theorem toChars_ne_nil (label : Label) : label.toChars ≠ [] := by
  by_cases plain : label.Plain
  · rw [toChars_of_plain plain]
    exact mt List.map_eq_nil_iff.mp plain.occupied
  · rw [toChars_of_not_plain plain]
    exact List.append_ne_nil_of_left_ne_nil (by decide) _

theorem digitChar_ne_slash : ∀ n < 16, Nat.digitChar n ≠ '/' := by
  decide

theorem slash_not_mem_toChars (label : Label) : '/' ∉ label.toChars := by
  intro mem
  by_cases plain : label.Plain
  · rw [toChars_of_plain plain] at mem
    obtain ⟨b, held, slash⟩ := List.mem_map.mp mem
    have ne : b ≠ 0x2f := (of_decide_eq_true (plain.plain b held)).2.2
    apply ne
    rw [← Hex.ofAscii_charOf b, slash]
    rfl
  · rw [toChars_of_not_plain plain] at mem
    rcases List.mem_append.mp mem with mark | digit
    · exact absurd mark (by decide)
    · obtain ⟨n, small, slash⟩ := Hex.exists_digitChar_of_mem_digits digit
      exact digitChar_ne_slash n small slash.symm

end Label

namespace LabelPath

theorem intercalate_ne_nil (label : Label) (path : List Label) :
    List.intercalate ['/'] ((label :: path).map Label.toChars) ≠ [] := by
  cases path with
  | nil =>
    rw [List.map_singleton, List.intercalate_singleton]
    exact label.toChars_ne_nil
  | cons next path =>
    rw [List.map_cons, List.map_cons, List.intercalate_cons_cons, List.append_assoc]
    exact List.append_ne_nil_of_left_ne_nil label.toChars_ne_nil _

theorem ofText_toText (path : List Label) : ofText (toText path) = .ok path := by
  rw [ofText, toText, String.toList_ofList]
  cases path with
  | nil => rfl
  | cons label path =>
    have whole : ∀ piece ∈ (label :: path).map Label.toChars, '/' ∉ piece := by
      intro piece mem
      obtain ⟨held, _, rfl⟩ := List.mem_map.mp mem
      exact held.slash_not_mem_toChars
    have occupied : (label :: path).map Label.toChars ≠ [] := List.cons_ne_nil _ _
    rw [if_neg (intercalate_ne_nil label path), Text.Slashed.segments_intercalate occupied whole,
      mapM_map_eq_ok Label.ofChars_toChars]

theorem toText_singleton (label : Label) : toText [label] = label.toText := by
  rw [toText, List.map_singleton, List.intercalate_singleton, Label.toText]

end LabelPath
end Certified
