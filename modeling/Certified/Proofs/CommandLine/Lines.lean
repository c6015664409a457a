import Mathlib
import Certified.Proofs.CommandLine.Paths
import Certified.Proofs.Timestamp.Text

/-!
The lines of a report. Whatever bytes a tree holds, no text in a report breaks its line, so the leaves are the
last lines, one each; and since no path has a blank, a line tells its path from its value.
-/

namespace Certified

/-- The lines of a text, between its line feeds. -/
def linesOf (text : String) : List String :=
  (text.split '\n').toList.map (·.copy)

theorem linesOf_joinLines {lines : List String} (occupied : lines ≠ [])
    (whole : ∀ line ∈ lines, '\n' ∉ line.toList) : linesOf (joinLines lines) = lines := by
  have split := String.toList_split_intercalate whole
  rw [if_neg occupied] at split
  exact split

/-! ### What stands in a line -/

/-- A printable ASCII character other than the space. -/
def IsGraphic (c : Char) : Prop :=
  0x21 ≤ c.toNat ∧ c.toNat ≤ 0x7e

theorem newline_not_mem_of_graphic {chars : List Char} (graphic : ∀ c ∈ chars, IsGraphic c) : '\n' ∉ chars := by
  intro mem
  exact absurd (graphic _ mem).1 (by decide)

theorem graphic_digitChar : ∀ n < 16, 0x21 ≤ (Nat.digitChar n).toNat ∧ (Nat.digitChar n).toNat ≤ 0x7e := by
  decide

theorem Hex.graphic_of_mem_digits {c : Char} {bytes : Bytes} (mem : c ∈ digits bytes) : IsGraphic c := by
  obtain ⟨n, small, rfl⟩ := exists_digitChar_of_mem_digits mem
  exact graphic_digitChar n small

theorem Hex.newline_not_mem_encode (bytes : Bytes) : '\n' ∉ (encode bytes).toList := by
  rw [encode, String.toList_ofList]
  exact newline_not_mem_of_graphic fun _ => graphic_of_mem_digits

/-- A label is written in graphic characters: as it is if it has no others, and else as digits. -/
theorem Label.graphic_of_mem_toChars {c : Char} {label : Label} (mem : c ∈ label.toChars) : IsGraphic c := by
  by_cases plain : label.Plain
  · rw [toChars_of_plain plain] at mem
    obtain ⟨b, held, rfl⟩ := List.mem_map.mp mem
    obtain ⟨least, most, _⟩ := of_decide_eq_true (plain.plain b held)
    rw [IsGraphic, Hex.toNat_charOf]
    exact ⟨UInt8.le_iff_toNat_le.mp least, UInt8.le_iff_toNat_le.mp most⟩
  · rw [toChars_of_not_plain plain] at mem
    rcases List.mem_append.mp mem with mark | digit
    · simp only [hexMark, String.reduceToList, List.mem_cons, List.not_mem_nil, or_false] at mark
      rcases mark with rfl | rfl | rfl | rfl <;> exact ⟨by decide, by decide⟩
    · exact Hex.graphic_of_mem_digits digit

theorem Label.newline_not_mem_toText (label : Label) : '\n' ∉ label.toText.toList := by
  rw [toText, String.toList_ofList]
  exact newline_not_mem_of_graphic fun _ => graphic_of_mem_toChars

theorem LabelPath.graphic_of_mem_toText {c : Char} {path : List Label} (mem : c ∈ (toText path).toList) :
    IsGraphic c := by
  rw [toText, String.toList_ofList] at mem
  induction path with
  | nil => cases mem
  | cons label path ih =>
    cases path with
    | nil =>
      rw [List.map_singleton, List.intercalate_singleton] at mem
      exact Label.graphic_of_mem_toChars mem
    | cons next path =>
      rw [List.map_cons, List.map_cons, List.intercalate_cons_cons, List.append_assoc] at mem
      rcases List.mem_append.mp mem with here | mem
      · exact Label.graphic_of_mem_toChars here
      rcases List.mem_append.mp mem with slash | later
      · rw [List.mem_singleton.mp slash]
        exact ⟨by decide, by decide⟩
      · exact ih later

theorem mem_of_mem_dashed {c : Char} {room : Nat} {chars : List Char} (mem : c ∈ dashed room chars) :
    c = '-' ∨ c ∈ chars := by
  induction chars generalizing room with
  | nil => cases room <;> cases mem
  | cons d chars ih =>
    cases room with
    | zero =>
      rcases List.mem_cons.mp mem with dash | mem
      · exact .inl dash
      rcases List.mem_cons.mp mem with here | later
      · exact .inr (here ▸ List.mem_cons_self)
      · exact (ih later).imp_right (List.mem_cons_of_mem d)
    | succ room =>
      rcases List.mem_cons.mp mem with here | later
      · exact .inr (here ▸ List.mem_cons_self)
      · exact (ih later).imp_right (List.mem_cons_of_mem d)

theorem toLower_symbol_ne_newline : ∀ n < 32, (Base32.symbol n).toLower ≠ '\n' := by
  decide

theorem Principal.newline_not_mem_toText (p : Principal) : '\n' ∉ p.toText.toList := by
  intro mem
  rw [toText, String.toList_ofList] at mem
  rcases mem_of_mem_dashed mem with dash | symbol
  · exact absurd dash (by decide)
  · obtain ⟨c, held, lower⟩ := List.mem_map.mp symbol
    obtain ⟨n, small, rfl⟩ := Base32.exists_symbol_of_mem_encode held
    exact toLower_symbol_ne_newline n small lower

theorem newline_not_mem_toDigits (n : Nat) : '\n' ∉ Nat.toDigits 10 n := by
  intro mem
  exact absurd (Nat.isDigit_of_mem_toDigits (by omega) (by omega) mem) (by decide)

theorem newline_not_mem_toString (n : Nat) : '\n' ∉ (toString n).toList := by
  rw [Nat.toString_eq_ofList_toDigits, String.toList_ofList]
  exact newline_not_mem_toDigits n

theorem Text.Decimal.newline_not_mem_padded (width n : Nat) : '\n' ∉ (padded width n).toList := by
  rw [padded, String.toList_ofList, List.mem_append, List.mem_replicate]
  rintro (⟨_, zero⟩ | digit)
  · exact absurd zero (by decide)
  · exact newline_not_mem_toDigits n digit

theorem newline_not_mem_timeText (n : UInt64) : '\n' ∉ (timeText n).toList := by
  rw [Timestamp.timeText_eq, String.toList_ofList, Moment.chars]
  simp [Text.Decimal.newline_not_mem_padded]

/-- A title and a text after it make one line. -/
theorem newline_not_mem_append {title text : String} (first : '\n' ∉ title.toList)
    (second : '\n' ∉ text.toList) : '\n' ∉ (title ++ text).toList := by
  rw [String.toList_append, List.mem_append]
  exact not_or.mpr ⟨first, second⟩

/-! ### Cutting -/

/-- A text cut at the first place where a mark stands, which is left out. -/
def cutAt? (mark : List Char) : List Char → Option (List Char × List Char)
  | [] => none
  | c :: rest =>
    match mark.isPrefixOf? (c :: rest) with
    | some after => some ([], after)
    | none => (cutAt? mark rest).map fun (before, after) => (c :: before, after)

/-- A line cut at the first equals sign between two blanks. -/
def cutLine? (line : String) : Option (String × String) :=
  (cutAt? [' ', '=', ' '] line.toList).map fun (before, after) => (String.ofList before, String.ofList after)

theorem cutAt?_append {before : List Char} (solid : ' ' ∉ before) (after : List Char) :
    cutAt? [' ', '=', ' '] (before ++ ' ' :: '=' :: ' ' :: after) = some (before, after) := by
  induction before with
  | nil => rfl
  | cons c before ih =>
    obtain ⟨first, rest⟩ := not_or.mp (mt List.mem_cons.mpr solid)
    have elsewhere : [' ', '=', ' '].isPrefixOf? (c :: (before ++ ' ' :: '=' :: ' ' :: after)) = none := by
      simp [List.isPrefixOf?, first]
    rw [List.cons_append, cutAt?, elsewhere]
    simp [ih rest]

/-- Behind two blanks the first cut is the same, unless the text before it is an equals sign alone, which the
second blank belongs to. -/
theorem cutAt?_indented {before : List Char} (solid : ' ' ∉ before) (after : List Char) :
    cutAt? [' ', '=', ' '] (' ' :: ' ' :: (before ++ ' ' :: '=' :: ' ' :: after)) =
      if before = ['='] then some ([' '], '=' :: ' ' :: after) else some (' ' :: ' ' :: before, after) := by
  have first (chars : List Char) : [' ', '=', ' '].isPrefixOf? (' ' :: ' ' :: chars) = none := by
    simp [List.isPrefixOf?]
  split
  · rename_i sign
    rw [sign, cutAt?, first]
    rfl
  · rename_i other
    have second : [' ', '=', ' '].isPrefixOf? (' ' :: (before ++ ' ' :: '=' :: ' ' :: after)) = none := by
      rcases before with _ | ⟨c, _ | ⟨d, before⟩⟩
      · simp [List.isPrefixOf?]
      · have ne : '=' ≠ c := fun same => other (by rw [same])
        simp [List.isPrefixOf?, ne]
      · obtain ⟨_, solid⟩ := not_or.mp (mt List.mem_cons.mpr solid)
        obtain ⟨ne, _⟩ := not_or.mp (mt List.mem_cons.mpr solid)
        simp [List.isPrefixOf?, ne]
    rw [cutAt?, first, cutAt?, second, cutAt?_append solid after]
    rfl

/-! ### Lines of leaves -/

namespace ListedLeaf

/-- The path of a leaf has no blank, and the value is hexadecimal. -/
structure Plain (leaf : ListedLeaf) : Prop where
  path : ∀ c ∈ leaf.path.toList, IsGraphic c
  value : ∀ c ∈ leaf.value.toList, c ∈ "0123456789abcdef".toList

/-- The leaf of a line: two blanks, then the path and the value with an equals sign between them. -/
def ofLine? (line : String) : Option ListedLeaf := do
  let chars ← [' ', ' '].isPrefixOf? line.toList
  let (path, value) ← cutLine? (String.ofList chars)
  some { path, value }

theorem toList_line (leaf : ListedLeaf) :
    leaf.line.toList =
      ' ' :: ' ' :: (leaf.path.toList ++ ' ' :: '=' :: ' ' :: leaf.value.toList) := by
  simp [line]

variable {leaf : ListedLeaf}

theorem Plain.solid (plain : leaf.Plain) : ' ' ∉ leaf.path.toList := by
  intro mem
  exact absurd (plain.path _ mem).1 (by decide)

theorem Plain.newline_not_mem_line (plain : leaf.Plain) : '\n' ∉ leaf.line.toList := by
  have path := newline_not_mem_of_graphic plain.path
  have value : '\n' ∉ leaf.value.toList := fun mem => absurd (plain.value _ mem) (by decide)
  rw [toList_line]
  simp [path, value]

/-- A line of a leaf says which leaf it is. -/
theorem Plain.ofLine?_line (plain : leaf.Plain) : ofLine? leaf.line = some leaf := by
  rw [ofLine?, toList_line]
  simp only [List.isPrefixOf?, beq_self_eq_true, if_true, Option.bind_eq_bind, Option.bind_some, cutLine?,
    String.toList_ofList, cutAt?_append plain.solid, Option.map_some, String.ofList_toList]

/-- The line is cut where it should be if its indent is left on, but for one path. -/
theorem Plain.cutLine?_line_iff (plain : leaf.Plain) :
    cutLine? leaf.line = some ("  " ++ leaf.path, leaf.value) ↔ leaf.path ≠ "=" := by
  have indented : String.ofList (' ' :: ' ' :: leaf.path.toList) = "  " ++ leaf.path :=
    String.toList_inj.mp (by simp)
  rw [cutLine?, toList_line, cutAt?_indented plain.solid]
  split
  · rename_i sign
    have path : leaf.path = "=" := String.toList_inj.mp sign
    simp [path]
  · rename_i other
    have path : leaf.path ≠ "=" := fun same => other (by rw [same]; rfl)
    simp only [Option.map_some, indented, String.ofList_toList]
    exact iff_of_true trivial path

theorem plain_of_mem_listing {t : HashTree} (mem : leaf ∈ t.listing) : leaf.Plain := by
  obtain ⟨⟨path, value⟩, _, rfl⟩ := List.mem_map.mp mem
  exact ⟨fun c => LabelPath.graphic_of_mem_toText, (Hex.writes_encode value).lowercase⟩

end ListedLeaf

/-! ### Lines of reports -/

/-- After some lines a text has one line for each leaf and no other, and these lines say which leaves they are:
without its two blanks each is cut into the path and the value. Where the blanks are left on they come before
the path, except that the second of them is taken for the blank before the equals sign of the path `=`. -/
structure EndsInLeaves (text : String) (before : Nat) (leaves : List ListedLeaf) : Prop where
  length_eq : (linesOf text).length = before + leaves.length
  last : (linesOf text).drop before = leaves.map ListedLeaf.line
  plain : ∀ leaf ∈ leaves, leaf.Plain
  read : ((linesOf text).drop before).map ListedLeaf.ofLine? = leaves.map some
  cut : ∀ leaf ∈ leaves, cutLine? leaf.line = some ("  " ++ leaf.path, leaf.value) ↔ leaf.path ≠ "="

theorem endsInLeaves_joinLines {head : List String} (occupied : head ≠ [])
    (whole : ∀ line ∈ head, '\n' ∉ line.toList) {leaves : List ListedLeaf}
    (plain : ∀ leaf ∈ leaves, leaf.Plain) :
    EndsInLeaves (joinLines (head ++ leaves.map ListedLeaf.line)) head.length leaves := by
  have lines : linesOf (joinLines (head ++ leaves.map ListedLeaf.line)) =
      head ++ leaves.map ListedLeaf.line := by
    apply linesOf_joinLines (List.append_ne_nil_of_left_ne_nil occupied _)
    intro line mem
    rcases List.mem_append.mp mem with inHead | inLeaves
    · exact whole line inHead
    · obtain ⟨leaf, held, rfl⟩ := List.mem_map.mp inLeaves
      exact (plain leaf held).newline_not_mem_line
  have read : (leaves.map ListedLeaf.line).map ListedLeaf.ofLine? = leaves.map some := by
    rw [List.map_map]
    exact List.map_congr_left fun leaf held => (plain leaf held).ofLine?_line
  constructor
  · rw [lines, List.length_append, List.length_map]
  · rw [lines, List.drop_left]
  · exact plain
  · rw [lines, List.drop_left, read]
  · exact fun leaf held => (plain leaf held).cutLine?_line_iff

/-- The number of lines before the leaves. -/
def VerificationReport.headCount (r : VerificationReport) : Nat :=
  5 + (if r.subnetId.isSome then 1 else 0) + (if r.signatureChecked then 0 else 1) +
    if r.responseKey.isSome then 1 else 0

theorem VerificationReport.length_headLines (r : VerificationReport) : r.headLines.length = r.headCount := by
  rw [headLines, headCount]
  cases r.subnetId <;> cases r.signatureChecked <;> cases r.responseKey <;> rfl

theorem VerificationReport.newline_not_mem_headLines (r : VerificationReport) :
    ∀ line ∈ r.headLines, '\n' ∉ line.toList := by
  intro line mem
  simp only [headLines, List.mem_append, List.mem_cons, List.not_mem_nil, or_false, Option.mem_toList,
    Option.map_eq_some_iff, List.mem_ite_nil_left] at mem
  rcases mem with ((((rfl | rfl | rfl | rfl) | ⟨id, _, rfl⟩) | ⟨_, rfl⟩) | ⟨key, _, rfl⟩) | rfl
  · decide
  · exact newline_not_mem_append (by decide) r.canister.newline_not_mem_toText
  · exact newline_not_mem_append (by decide) (newline_not_mem_timeText r.time)
  · exact newline_not_mem_append (by decide) (Hex.newline_not_mem_encode _)
  · exact newline_not_mem_append (by decide) (Hex.newline_not_mem_encode id)
  · decide
  · exact newline_not_mem_append (by decide) key.newline_not_mem_toText
  · exact newline_not_mem_append (by decide) (newline_not_mem_toString _)

/-- The number of lines before the leaves. -/
def CertificateSummary.headCount (s : CertificateSummary) : Nat :=
  6 + if s.subnetId.isSome then 1 else 0

theorem CertificateSummary.length_headLines (s : CertificateSummary) : s.headLines.length = s.headCount := by
  rw [headLines, headCount]
  cases s.subnetId <;> rfl

theorem CertificateSummary.newline_not_mem_headLines (s : CertificateSummary) :
    ∀ line ∈ s.headLines, '\n' ∉ line.toList := by
  intro line mem
  simp only [headLines, List.mem_append, List.mem_cons, List.not_mem_nil, or_false, Option.mem_toList,
    Option.map_eq_some_iff] at mem
  rcases mem with ((rfl | rfl | rfl | rfl | rfl) | ⟨id, _, rfl⟩) | rfl
  · decide
  · decide
  · exact newline_not_mem_append (by decide) (Hex.newline_not_mem_encode _)
  · apply newline_not_mem_append (by decide)
    cases s.time with
    | none => decide
    | some nanos => exact newline_not_mem_timeText nanos
  · exact newline_not_mem_append (by decide) (Hex.newline_not_mem_encode _)
  · exact newline_not_mem_append (by decide) (Hex.newline_not_mem_encode id)
  · exact newline_not_mem_append (by decide) (newline_not_mem_toString _)

theorem VerificationReport.endsInLeaves (r : VerificationReport) (plain : ∀ leaf ∈ r.leaves, leaf.Plain) :
    EndsInLeaves r.text r.headCount r.leaves := by
  have occupied : r.headLines ≠ [] := by simp [headLines]
  rw [← r.length_headLines]
  exact endsInLeaves_joinLines occupied r.newline_not_mem_headLines plain

theorem CertificateSummary.endsInLeaves (s : CertificateSummary) (plain : ∀ leaf ∈ s.leaves, leaf.Plain) :
    EndsInLeaves s.text s.headCount s.leaves := by
  have occupied : s.headLines ≠ [] := by simp [headLines]
  rw [← s.length_headLines]
  exact endsInLeaves_joinLines occupied s.newline_not_mem_headLines plain

/-- Nothing that is verified or inspected adds a line to what is printed about it or takes one away: the lines
before the leaves are as many as the report has fields to show, and after them comes one line for each leaf,
which tells the path and the value of this leaf. -/
theorem printed_lines_exact :
    (∀ (request : Request) (config : Config) (now : UInt64) (report : VerificationReport),
      request.verify config now = .ok report →
        EndsInLeaves report.text report.headCount report.leaves) ∧
    ∀ c : Certificate, EndsInLeaves c.summary.text c.summary.headCount c.summary.leaves := by
  refine ⟨?_, ?_⟩
  · intro request config now report verified
    obtain ⟨t, same⟩ := Request.exists_listing_of_verify verified
    exact report.endsInLeaves fun leaf mem => ListedLeaf.plain_of_mem_listing (same ▸ mem)
  · intro c
    exact c.summary.endsInLeaves fun leaf mem => ListedLeaf.plain_of_mem_listing (t := c.tree) mem

namespace Lines.Sample

/-- A certificate with one leaf, under a label. -/
def holding (label : Label) : Certificate where
  tree := .labeled label (.leaf [0x2a])
  signature := []
  delegation := none

/-- A label that looks like the end of one line and another one. -/
def forged : Label := Bytes.ofText " = 00\n  time"

end Lines.Sample

/-- A report on a request that is accepted, and a summary in which a label that looks like two lines is part of
one. -/
theorem printed_lines_exact_sample :
    (∃ report, Request.Sample.request.verify Request.Sample.config 1 = .ok report ∧
      EndsInLeaves report.text report.headCount Request.Sample.witness.listing) ∧
    (linesOf (Lines.Sample.holding Lines.Sample.forged).summary.text).length = 7 ∧
    (linesOf (Lines.Sample.holding Lines.Sample.forged).summary.text).drop 6 =
      ["  hex:203d2030300a202074696d65 = 2a"] := by
  obtain ⟨reports, summaries⟩ := printed_lines_exact
  obtain ⟨c, time, _, made⟩ :=
    Request.verify_of_ok Request.Sample.resolves Request.Sample.verifyExpected_eq
  have summary := summaries (Lines.Sample.holding Lines.Sample.forged)
  refine ⟨⟨_, made, reports _ _ _ _ made⟩, summary.length_eq, summary.last.trans ?_⟩
  decide +kernel

theorem Lines.Sample.leaves_equalsSign : (holding [0x3d]).summary.leaves = [⟨"=", "2a"⟩] := by
  decide +kernel

/-- The line of the path `=` has its first equals sign between two blanks before the path, so that cutting the
whole line there leaves neither the path nor the value. -/
theorem exists_line_cut_before_path :
    ∃ leaf ∈ (Lines.Sample.holding [0x3d]).summary.leaves,
      leaf.line ∈ linesOf (Lines.Sample.holding [0x3d]).summary.text ∧
      leaf.path = "=" ∧ leaf.value = "2a" ∧ cutLine? leaf.line = some (" ", "= 2a") := by
  have leaves := Lines.Sample.leaves_equalsSign
  refine ⟨⟨"=", "2a"⟩, by rw [leaves]; exact List.mem_singleton_self _, ?_, rfl, rfl, by decide +kernel⟩
  have plain : ∀ leaf ∈ (Lines.Sample.holding [0x3d]).summary.leaves, leaf.Plain :=
    fun _ => ListedLeaf.plain_of_mem_listing (t := (Lines.Sample.holding [0x3d]).tree)
  have last := (CertificateSummary.endsInLeaves _ plain).last
  apply List.mem_of_mem_drop
  rw [last, leaves]
  exact List.mem_singleton_self _

end Certified
