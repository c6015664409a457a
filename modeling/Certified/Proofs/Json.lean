import Mathlib
import Certified.Json.Decoding
import Certified.Json.Printer
import Certified.Proofs.Hex
import Certified.Radix.Lemmas

/-!
Texts between quotation marks read back, whatever characters they have, and so do objects whose values are
texts, on one line or over several.
-/

namespace Certified.Json

/-! ### Strings -/

/-- What is read for an escaped character: a control character that has no letter comes back as a number. -/
def pieceOf (c : Char) : Piece :=
  if c.toNat < 0x20 ∧ c ∉ ['\x08', '\x0c', '\n', '\r', '\t'] then .unit c.toNat else .char c

/-- Four digits after the escape are read as the number of the character. -/
theorem pieces?_unit {n : Nat} (small : n < 0x20) (rest : List Char) :
    pieces? ('\\' :: 'u' :: ((Radix.digits 16 4 n).map Nat.digitChar ++ rest)) =
      (pieces? rest).map fun (pieces, rest) => (.unit n :: pieces, rest) := by
  have digits : ∀ d ∈ Radix.digits 16 4 n, d < 16 := fun d mem => Radix.lt_of_mem_digits (by decide) mem
  have value : Radix.value 16 (Radix.digits 16 4 n) = n := by
    rw [Radix.value_digits, Nat.mod_eq_of_lt (by omega)]
  have read := Radix.mapM_digitOf?_digitChar (by omega) digits
  have length : (Radix.digits 16 4 n).length = 4 := Radix.length_digits 16 4 n
  generalize Radix.digits 16 4 n = ds at read value length
  match ds, length with
  | [a, b, c, d], _ =>
    simp only [List.map_cons, List.map_nil] at read
    simp only [List.map_cons, List.map_nil, List.cons_append, List.nil_append, pieces?, read,
      Option.bind_eq_bind, Option.bind_some, value]
    cases pieces? rest <;> rfl

theorem pieces?_escape (c : Char) (rest : List Char) :
    pieces? (escape c ++ rest) = (pieces? rest).map fun (pieces, rest) => (pieceOf c :: pieces, rest) := by
  unfold escape
  split_ifs with mark backslash h₃ h₄ h₅ h₆ h₇ small
  case pos | pos | pos | pos | pos | pos | pos =>
    subst c
    rw [List.cons_append, List.cons_append, List.nil_append, pieces?]
    cases pieces? rest <;> rfl
  · have unit : pieceOf c = .unit c.toNat := if_pos ⟨small, by simp [*]⟩
    rw [unit, List.append_assoc]
    exact pieces?_unit small rest
  · have char : pieceOf c = .char c := if_neg fun control => small control.1
    rw [char, List.cons_append, List.nil_append, pieces?, if_neg small]
    · cases pieces? rest <;> rfl
    · exact mark
    · exact fun _ _ _ _ _ same _ => backslash same
    · exact fun _ _ same _ => backslash same

theorem pieces?_escaped (chars rest : List Char) :
    pieces? (chars.flatMap escape ++ '"' :: rest) = some (chars.map pieceOf, rest) := by
  induction chars with
  | nil => rfl
  | cons c chars ih =>
    rw [List.flatMap_cons, List.append_assoc, pieces?_escape, ih, Option.map_some, List.map_cons]

/-- The number of a control character is no half of a pair, whatever comes after it. -/
theorem joinPieces?_unit {n : Nat} (small : n < 0x20) (pieces : List Piece) :
    joinPieces? (.unit n :: pieces) = (joinPieces? pieces).map (Char.ofNat n :: ·) := by
  have notHigh : ¬ (0xd800 ≤ n ∧ n < 0xdc00) := by omega
  have notLow : ¬ (0xdc00 ≤ n ∧ n < 0xe000) := by omega
  have notHalf : ¬ (0xd800 ≤ n ∧ n < 0xe000) := by omega
  rcases pieces with _ | ⟨_ | low, pieces⟩
  · simp [joinPieces?, notHalf]
  · simp [joinPieces?, notHalf]
  · rw [joinPieces?, if_neg notHigh, if_neg notLow]

theorem joinPieces?_map_pieceOf (chars : List Char) : joinPieces? (chars.map pieceOf) = some chars := by
  induction chars with
  | nil => rfl
  | cons c chars ih =>
    rw [List.map_cons]
    by_cases control : c.toNat < 0x20 ∧ c ∉ ['\x08', '\x0c', '\n', '\r', '\t']
    · rw [pieceOf, if_pos control, joinPieces?_unit control.1, ih, Char.ofNat_toNat, Option.map_some]
    · rw [pieceOf, if_neg control, joinPieces?, ih, Option.map_some]

theorem toList_quote (text : String) :
    (quote text).toList = '"' :: (text.toList.flatMap escape ++ ['"']) := by
  rw [quote, String.toList_ofList]
  rfl

/-- What is quoted reads back, after the opening mark. -/
theorem string?_escaped (text : String) (rest : List Char) :
    string? (text.toList.flatMap escape ++ '"' :: rest) = some (some text, rest) := by
  rw [string?, pieces?_escaped]
  simp only [Option.bind_eq_bind, Option.bind_some, joinPieces?_map_pieceOf, Option.map_some,
    String.ofList_toList]

/-! ### Objects of texts -/

/-- The object with texts under the names. -/
def ofTexts (rows : List (String × String)) : Json :=
  .object (rows.map fun row => (some row.1, .ofText row.2))

theorem skipBlanks_append {blanks rest : List Char} {c : Char} (all : ∀ b ∈ blanks, isBlank b)
    (solid : isBlank c = false) : skipBlanks (blanks ++ c :: rest) = c :: rest := by
  rw [skipBlanks, List.dropWhile_append_of_pos all, List.dropWhile_cons_of_neg (by simp [solid])]

/-- The fields up to the end of the object, with blanks after each colon and each comma, and before the
end. -/
def rowsChars (gap next last : List Char) : List (String × String) → List Char
  | [] => []
  | [row] => (quote row.1).toList ++ ':' :: (gap ++ ((quote row.2).toList ++ (last ++ ['}'])))
  | row :: rows =>
    (quote row.1).toList ++ ':' :: (gap ++ ((quote row.2).toList ++
      ',' :: (next ++ rowsChars gap next last rows)))

theorem value?_quote (fuel : Nat) (text : String) (rest : List Char) :
    value? (fuel + 1) ((quote text).toList ++ rest) = some (.ofText text, rest) := by
  rw [toList_quote, List.cons_append, List.append_assoc, value?, List.singleton_append, string?_escaped]
  rfl

section

variable {gap next last : List Char}

theorem skipBlanks_colon (chars : List Char) : skipBlanks (':' :: chars) = ':' :: chars := rfl

theorem value?_row (gapBlank : ∀ b ∈ gap, isBlank b) (fuel : Nat) (text : String) (rest : List Char) :
    value? (fuel + 1) (skipBlanks (gap ++ ((quote text).toList ++ rest))) = some (.ofText text, rest) := by
  rw [toList_quote, List.cons_append, skipBlanks_append gapBlank (by rfl), ← List.cons_append, ← toList_quote,
    value?_quote]

/-- A field before a comma. -/
theorem fields?_more (gapBlank : ∀ b ∈ gap, isBlank b) (row : String × String) (fuel : Nat)
    {rest more : List Char} (comma : skipBlanks rest = ',' :: more) :
    fields? (fuel + 2) ((quote row.1).toList ++ ':' :: (gap ++ ((quote row.2).toList ++ rest))) =
      (fields? (fuel + 1) (skipBlanks more)).map fun (fields, rest) =>
        ((some row.1, .ofText row.2) :: fields, rest) := by
  rw [toList_quote, List.cons_append, List.append_assoc, List.singleton_append, fields?, string?_escaped]
  simp only [Option.bind_eq_bind, Option.bind_some, skipBlanks_colon, value?_row gapBlank, comma]
  cases fields? (fuel + 1) (skipBlanks more) <;> rfl

/-- The field before the end of the object. -/
theorem fields?_last (gapBlank : ∀ b ∈ gap, isBlank b) (row : String × String) (fuel : Nat)
    {rest more : List Char} (close : skipBlanks rest = '}' :: more) :
    fields? (fuel + 2) ((quote row.1).toList ++ ':' :: (gap ++ ((quote row.2).toList ++ rest))) =
      some ([(some row.1, .ofText row.2)], more) := by
  rw [toList_quote, List.cons_append, List.append_assoc, List.singleton_append, fields?, string?_escaped]
  simp only [Option.bind_eq_bind, Option.bind_some, skipBlanks_colon, value?_row gapBlank, close]

theorem rowsChars_cons_cons (gap next last : List Char) (row other : String × String)
    (rows : List (String × String)) :
    rowsChars gap next last (row :: other :: rows) =
      (quote row.1).toList ++ ':' :: (gap ++ ((quote row.2).toList ++
        ',' :: (next ++ rowsChars gap next last (other :: rows)))) := rfl

theorem exists_rowsChars (gap next last : List Char) (row : String × String) (rows : List (String × String)) :
    ∃ more, rowsChars gap next last (row :: rows) = '"' :: more := by
  cases rows <;> simp [rowsChars, toList_quote]

/-- All fields are read, each with one unit of fuel and the value of the last with one more. -/
theorem fields?_rowsChars (gapBlank : ∀ b ∈ gap, isBlank b) (nextBlank : ∀ b ∈ next, isBlank b)
    (lastBlank : ∀ b ∈ last, isBlank b) (row : String × String) (rows : List (String × String)) {fuel : Nat}
    (enough : rows.length + 2 ≤ fuel) (rest : List Char) :
    fields? fuel (rowsChars gap next last (row :: rows) ++ rest) =
      some ((row :: rows).map fun row => (some row.1, .ofText row.2), rest) := by
  induction rows generalizing row fuel with
  | nil =>
    obtain ⟨fuel, rfl⟩ := Nat.exists_eq_add_of_le' (show 2 ≤ fuel from enough)
    have split : rowsChars gap next last [row] ++ rest =
        (quote row.1).toList ++ ':' :: (gap ++ ((quote row.2).toList ++ (last ++ '}' :: rest))) := by
      simp [rowsChars]
    rw [split, fields?_last gapBlank row fuel (skipBlanks_append lastBlank (by rfl))]
    rfl
  | cons other rows ih =>
    obtain ⟨fuel, rfl⟩ := Nat.exists_eq_add_of_le' (Nat.le_trans (Nat.le_add_left 2 _) enough)
    have split : rowsChars gap next last (row :: other :: rows) ++ rest =
        (quote row.1).toList ++ ':' :: (gap ++ ((quote row.2).toList ++
          (',' :: (next ++ (rowsChars gap next last (other :: rows) ++ rest))))) := by
      simp [rowsChars]
    have left : rows.length + 2 ≤ fuel + 1 := by
      rw [List.length_cons] at enough
      omega
    have read := ih other left
    obtain ⟨more, starts⟩ := exists_rowsChars gap next last other rows
    rw [split, fields?_more gapBlank row fuel (by rfl), starts, List.cons_append,
      skipBlanks_append nextBlank (by rfl), ← List.cons_append, ← starts, read]
    rfl

theorem length_lt_rowsChars (row : String × String) (rows : List (String × String)) :
    rows.length < (rowsChars gap next last (row :: rows)).length := by
  induction rows generalizing row with
  | nil => simp [rowsChars]
  | cons other rows ih =>
    have := ih other
    simp only [rowsChars, List.length_append, List.length_cons] at this ⊢
    omega

theorem value?_rowsChars (gapBlank : ∀ b ∈ gap, isBlank b) (nextBlank : ∀ b ∈ next, isBlank b)
    (lastBlank : ∀ b ∈ last, isBlank b) (row : String × String) (rows : List (String × String)) {fuel : Nat}
    (enough : rows.length + 2 ≤ fuel) (rest : List Char) :
    value? (fuel + 1) ('{' :: (next ++ (rowsChars gap next last (row :: rows) ++ rest))) =
      some (ofTexts (row :: rows), rest) := by
  have read := fields?_rowsChars gapBlank nextBlank lastBlank row rows enough rest
  obtain ⟨more, starts⟩ := exists_rowsChars gap next last row rows
  rw [starts, List.cons_append] at read
  have inside : skipBlanks (next ++ '"' :: (more ++ rest)) = '"' :: (more ++ rest) :=
    skipBlanks_append nextBlank rfl
  rw [starts, List.cons_append]
  simp only [value?, inside]
  show (fields? fuel ('"' :: (more ++ rest))).map _ = _
  rw [read]
  rfl

/-- An object of texts reads back, with blanks inside it. -/
theorem parse?_rowsChars (gapBlank : ∀ b ∈ gap, isBlank b) (nextBlank : ∀ b ∈ next, isBlank b)
    (lastBlank : ∀ b ∈ last, isBlank b) (row : String × String) (rows : List (String × String)) :
    parse? (String.ofList ('{' :: (next ++ rowsChars gap next last (row :: rows)))) =
      some (ofTexts (row :: rows)) := by
  have long : rows.length + 2 ≤ 2 * ('{' :: (next ++ rowsChars gap next last (row :: rows))).length := by
    have shorter : rows.length < (rowsChars gap next last (row :: rows)).length :=
      length_lt_rowsChars row rows
    rw [List.length_cons, List.length_append]
    omega
  have read := value?_rowsChars gapBlank nextBlank lastBlank row rows long []
  have brace (chars : List Char) : skipBlanks ('{' :: chars) = '{' :: chars := rfl
  rw [List.append_nil] at read
  rw [parse?, String.toList_ofList, brace]
  simp only [read]
  rfl

end

theorem toList_compactFields (row : String × String) (rows : List (String × String)) :
    (compactFields ((row :: rows).map fun row => (some row.1, .ofText row.2))).toList ++ ['}'] =
      rowsChars [] [] [] (row :: rows) := by
  induction rows generalizing row with
  | nil => simp [compactFields, rowsChars, compact, ofText]
  | cons other rows ih =>
    rw [rowsChars_cons_cons, ← ih other]
    simp [compactFields, compact, ofText]

theorem toList_prettyFields (level : Nat) (last : List Char) (row : String × String)
    (rows : List (String × String)) :
    (prettyFields level ((row :: rows).map fun row => (some row.1, .ofText row.2))).toList ++
        (last ++ ['}']) =
      (newLine level).toList ++ rowsChars [' '] (newLine level).toList last (row :: rows) := by
  induction rows generalizing row with
  | nil => simp [prettyFields, rowsChars, pretty, compact, ofText]
  | cons other rows ih =>
    rw [rowsChars_cons_cons, ← ih other]
    simp [prettyFields, pretty, compact, ofText]

theorem isBlank_of_mem_newLine {level : Nat} {c : Char} (mem : c ∈ (newLine level).toList) : isBlank c := by
  rw [newLine, String.toList_ofList] at mem
  obtain rfl | mem := List.mem_cons.mp mem
  · rfl
  · rw [List.eq_of_mem_replicate mem]
    rfl

/-- What is written for an object of texts reads back, on one line or over several. -/
theorem parse?_ofTexts (row : String × String) (rows : List (String × String)) :
    parse? (ofTexts (row :: rows)).compact = some (ofTexts (row :: rows)) ∧
      parse? ((ofTexts (row :: rows)).pretty 0) = some (ofTexts (row :: rows)) := by
  have compact : (ofTexts (row :: rows)).compact =
      String.ofList ('{' :: ([] ++ rowsChars [] [] [] (row :: rows))) := by
    rw [← String.toList_inj, String.toList_ofList, List.nil_append, ← toList_compactFields]
    simp [ofTexts, compact]
  have pretty : (ofTexts (row :: rows)).pretty 0 =
      String.ofList ('{' :: ((newLine 1).toList ++
        rowsChars [' '] (newLine 1).toList (newLine 0).toList (row :: rows))) := by
    rw [← String.toList_inj, String.toList_ofList, ← toList_prettyFields]
    simp [ofTexts, pretty]
  rw [compact, pretty]
  have line (level : Nat) : ∀ b ∈ (newLine level).toList, isBlank b := fun _ => isBlank_of_mem_newLine
  exact ⟨parse?_rowsChars (by simp) (by simp) (by simp) row rows,
    parse?_rowsChars (by simp [isBlank]) (line 1) (line 0) row rows⟩

end Certified.Json

namespace Certified.CertifiedResponse

theorem toJson_eq (r : CertifiedResponse) :
    r.toJson = .ofTexts [("response", r.response), ("certificate", Hex.encode r.certificate),
      ("witness", Hex.encode r.witness)] := rfl

theorem ofJson?_toJson (r : CertifiedResponse) : ofJson? r.toJson = some r := by
  have fields : r.toJson.record? ["response", "certificate", "witness"] =
      some [.ofText r.response, .ofText (Hex.encode r.certificate), .ofText (Hex.encode r.witness)] := by
    simp [toJson, Json.record?, Json.onlyField?, Json.fieldsNamed]
  rw [ofJson?, fields]
  simp [Json.text?, Json.ofText, Hex.decode_encode, Except.toOption]

/-- A response reads back from its JSON, on one line or over several. -/
theorem ofText?_toJson (r : CertifiedResponse) :
    ofText? r.toJson.compact = some r ∧ ofText? (r.toJson.pretty 0) = some r := by
  obtain ⟨compact, pretty⟩ := Json.parse?_ofTexts ("response", r.response)
    [("certificate", Hex.encode r.certificate), ("witness", Hex.encode r.witness)]
  rw [← toJson_eq] at compact pretty
  rw [ofText?, ofText?, compact, pretty]
  exact ⟨ofJson?_toJson r, ofJson?_toJson r⟩

end Certified.CertifiedResponse
