import Mathlib
import Certified.Proofs.Decimal
import Certified.Proofs.Toml.Strings

/-!
TOML documents of tables with bare keys. A document is read line by line: each line is a statement or blank, and
a value is read up to the end of its line.
-/

namespace Certified.Toml

/-! ### Whole numbers -/

section

variable {word : List Char}

theorem not_mem_of_digits (digits : ∀ d ∈ word, d.isDigit = true) {c : Char} (other : c.isDigit = false) :
    c ∉ word := by
  intro mem
  rw [digits c mem] at other
  cases other

theorem ne_cons_of_digits (digits : ∀ d ∈ word, d.isDigit = true) {c : Char} (other : c.isDigit = false)
    (rest : List Char) : word ≠ c :: rest := by
  rintro rfl
  exact not_mem_of_digits digits other List.mem_cons_self

theorem after?_eq_none {c : Char} {chars : List Char} (missing : c ∉ chars) : after? c chars = none := by
  cases chars with
  | nil => rfl
  | cons first rest =>
    rw [after?, if_neg]
    rintro rfl
    exact missing List.mem_cons_self

theorem subset_of_twoDigits? {most n : Nat} {chars rest : List Char}
    (read : twoDigits? most chars = some (n, rest)) : rest ⊆ chars := by
  unfold twoDigits? at read
  split at read
  · rename_i a b _
    obtain ⟨first, _, next⟩ := Option.bind_eq_some_iff.mp read
    obtain ⟨second, _, next⟩ := Option.bind_eq_some_iff.mp next
    dsimp only at next
    split at next
    · cases next
      exact List.Subset.trans (List.subset_cons_self b _) (List.subset_cons_self a _)
    · cases next
  · cases read

/-- A date has dashes. -/
theorem afterDate?_eq_none (missing : '-' ∉ word) : afterDate? word = none := by
  rw [Option.eq_none_iff_forall_ne_some]
  intro rest read
  obtain ⟨⟨century, later⟩, first, read⟩ := Option.bind_eq_some_iff.mp read
  obtain ⟨⟨year, later'⟩, second, read⟩ := Option.bind_eq_some_iff.mp read
  have missing : '-' ∉ later' := fun mem =>
    missing (subset_of_twoDigits? first (subset_of_twoDigits? second mem))
  dsimp only at read
  rw [after?_eq_none missing] at read
  cases read

/-- A time of day has colons. -/
theorem afterTime?_eq_none (missing : ':' ∉ word) : afterTime? word = none := by
  rw [Option.eq_none_iff_forall_ne_some]
  intro rest read
  obtain ⟨⟨hour, later⟩, first, read⟩ := Option.bind_eq_some_iff.mp read
  have missing : ':' ∉ later := fun mem => missing (subset_of_twoDigits? first mem)
  dsimp only at read
  rw [after?_eq_none missing] at read
  cases read

theorem dateTime?_of_digits (digits : ∀ c ∈ word, c.isDigit = true) : dateTime? word = none := by
  rw [dateTime?, afterDate?_eq_none (not_mem_of_digits digits rfl),
    afterTime?_eq_none (not_mem_of_digits digits rfl)]
  rfl

theorem splitSign_of_digits (digits : ∀ c ∈ word, c.isDigit = true) : splitSign word = (false, word) := by
  unfold splitSign
  split
  · exact absurd rfl (ne_cons_of_digits digits rfl _)
  · exact absurd rfl (ne_cons_of_digits digits rfl _)
  · rfl

/-- A float has a point or an exponent, or it is one of two words. -/
theorem float?_of_digits (digits : ∀ c ∈ word, c.isDigit = true) : float? word = none := by
  have noPoint : ∀ c ∈ word, (c ≠ '.') := fun c mem same => not_mem_of_digits digits rfl (same ▸ mem)
  have noMark : ∀ c ∈ word, (!isExponentMark c) = true := by
    intro c mem
    have lower : c ≠ 'e' := fun same => not_mem_of_digits digits rfl (same ▸ mem)
    have upper : c ≠ 'E' := fun same => not_mem_of_digits digits rfl (same ▸ mem)
    simp [isExponentMark, lower, upper]
  have notInf : word ≠ ['i', 'n', 'f'] := ne_cons_of_digits digits rfl _
  have notNan : word ≠ ['n', 'a', 'n'] := ne_cons_of_digits digits rfl _
  have whole : word.takeWhile (fun c => !isExponentMark c) = word := List.takeWhile_eq_self_iff.mpr noMark
  have noExponent : word.dropWhile (fun c => !isExponentMark c) = [] := List.dropWhile_eq_nil_iff.mpr noMark
  have noFraction : word.dropWhile (fun c => c ≠ '.') = [] :=
    List.dropWhile_eq_nil_iff.mpr (by simpa using noPoint)
  unfold float?
  simp only [splitSign_of_digits digits, notInf, notNan, or_self, if_false, whole, noExponent, noFraction]
  cases wholeDigits? (word.takeWhile fun c => c ≠ '.') <;> rfl

end

theorem groupedDigits?_map {ds : List Nat} (occupied : ds ≠ []) (small : ∀ d ∈ ds, d < 10) :
    groupedDigits? 10 (ds.map Nat.digitChar) = some ds := by
  induction ds with
  | nil => exact absurd rfl occupied
  | cons d ds ih =>
    obtain ⟨first, rest⟩ := List.forall_mem_cons.mp small
    have read := Radix.digitOf?_digitChar 10 (by omega) d first
    cases ds with
    | nil => simp [groupedDigits?, read]
    | cons e ds =>
      have noGap : Nat.digitChar e ≠ '_' := by
        intro same
        have := Radix.digitOf?_digitChar 10 (by omega) e (rest e List.mem_cons_self)
        rw [same] at this
        cases this
      have further := ih (by simp) rest
      rw [List.map_cons] at further
      rw [List.map_cons, List.map_cons, groupedDigits?, read, further]
      · rfl
      · simp
      · simp [noGap]

theorem isDigit_of_mem_toDigits (n : Nat) : ∀ c ∈ Nat.toDigits 10 n, c.isDigit = true := by
  intro c mem
  exact Nat.isDigit_of_mem_toDigits (by omega) (by omega) mem

theorem wholeDigits?_toDigits (n : Nat) :
    ∃ ds, wholeDigits? (Nat.toDigits 10 n) = some ds ∧ Radix.value 10 ds = n := by
  obtain ⟨ds, written, small, value⟩ := Text.Decimal.exists_digits n
  refine ⟨ds, ?_, value⟩
  have occupied : ds ≠ [] := by
    rintro rfl
    exact Nat.toDigits_ne_nil written
  have noZero : ¬ (ds.head? = some 0 ∧ (Nat.toDigits 10 n).length ≠ 1) := by
    rintro ⟨zero, long⟩
    rcases Nat.eq_zero_or_pos n with rfl | pos
    · exact long rfl
    · apply Text.Decimal.head?_toDigits_ne_zero pos
      rw [written, List.head?_map, zero]
      rfl
  rw [written] at noZero ⊢
  rw [wholeDigits?, groupedDigits?_map occupied small, Option.bind_eq_bind, Option.bind_some, if_neg noZero]

theorem integer?_toDigits {n : Nat} (fits : n < 2 ^ 63) :
    integer? (Nat.toDigits 10 n) = some (.integer n) := by
  have digits := isDigit_of_mem_toDigits n
  obtain ⟨ds, read, value⟩ := wholeDigits?_toDigits n
  have range : Int64.minValue.toInt ≤ (n : Int) ∧ (n : Int) ≤ Int64.maxValue.toInt := by
    have least : Int64.minValue.toInt = -2 ^ 63 := rfl
    have most : Int64.maxValue.toInt = 2 ^ 63 - 1 := rfl
    omega
  have noBase {mark : Char} {rest : List Char} (same : Nat.toDigits 10 n = '0' :: mark :: rest) :
      mark.isDigit = true := digits mark (by simp [same])
  unfold integer?
  split
  · rename_i same
    cases noBase same
  · rename_i same
    cases noBase same
  · rename_i same
    cases noBase same
  · simp only [splitSign_of_digits digits, read, value, Option.map_some, Radix.signed]
    simp [range]

theorem word?_toDigits {n : Nat} (fits : n < 2 ^ 63) : word? (Nat.toDigits 10 n) = some (.integer n) := by
  have digits := isDigit_of_mem_toDigits n
  have notTrue : Nat.toDigits 10 n ≠ ['t', 'r', 'u', 'e'] := ne_cons_of_digits digits rfl _
  have notFalse : Nat.toDigits 10 n ≠ ['f', 'a', 'l', 's', 'e'] := ne_cons_of_digits digits rfl _
  rw [word?, if_neg notTrue, if_neg notFalse, dateTime?_of_digits digits, float?_of_digits digits,
    integer?_toDigits fits]
  rfl

/-! ### Values -/

/-- A text is read as a value where its line ends after it. -/
structure ReadsAs (text : List Char) (value : Value) : Prop where
  begins : ∀ rest, skipBlanks (text ++ rest) = text ++ rest
  read : ∀ rest, value? depthLimit (text ++ '\n' :: rest) = some (value, '\n' :: rest)

theorem skipBlanks_cons {c : Char} (solid : isBlank c = false) (rest : List Char) :
    skipBlanks (c :: rest) = c :: rest :=
  List.dropWhile_cons_of_neg (by simp [solid])

/-- A value that opens no bracket is a string, or a word. -/
theorem value?_cons {c : Char} (bracket : c ≠ '[') (brace : c ≠ '\x7b') (rest : List Char) :
    value? depthLimit (c :: rest) =
      if c = '"' ∨ c = '\'' then (string? (c :: rest)).map fun (text, rest) => (.string text, rest)
      else wordValue? (c :: rest) := by
  rw [depthLimit, value?, valueWith?]
  · exact bracket
  · exact brace

theorem exists_mark_writeString (text : String) :
    ∃ mark rest, (writeString text).toList = mark :: rest ∧ (mark = '"' ∨ mark = '\'') := by
  rw [writeString, String.toList_ofList]
  cases StringForm.ofChars text.toList with
  | basic => exact ⟨'"', _, rfl, .inl rfl⟩
  | literal => exact ⟨'\'', _, rfl, .inr rfl⟩
  | multilineBasic => exact ⟨'"', _, rfl, .inl rfl⟩
  | multilineLiteral => exact ⟨'\'', _, rfl, .inr rfl⟩

theorem readsAs_writeString (text : String) : ReadsAs (writeString text).toList (.string text) := by
  obtain ⟨mark, tail, begun, marks⟩ := exists_mark_writeString text
  have solid : isBlank mark = false := by
    obtain rfl | rfl := marks <;> rfl
  constructor
  · intro rest
    rw [begun]
    exact skipBlanks_cons solid _
  · intro rest
    have ended : NoMark ('\n' :: rest) := ⟨by simp, by simp⟩
    have read := string?_writeString text ended
    rw [begun] at read ⊢
    rw [List.cons_append, value?_cons, if_pos marks, ← List.cons_append, read]
    · rfl
    all_goals obtain rfl | rfl := marks <;> decide

theorem takeWhile_append_cons {p : Char → Bool} {word : List Char} (inside : ∀ c ∈ word, p c = true) {c : Char}
    (ended : p c = false) (rest : List Char) : (word ++ c :: rest).takeWhile p = word := by
  rw [List.takeWhile_append_of_pos inside, List.takeWhile_cons_of_neg (by simp [ended]), List.append_nil]

theorem dropWhile_append_cons {p : Char → Bool} {word : List Char} (inside : ∀ c ∈ word, p c = true) {c : Char}
    (ended : p c = false) (rest : List Char) : (word ++ c :: rest).dropWhile p = c :: rest := by
  rw [List.dropWhile_append_of_pos inside, List.dropWhile_cons_of_neg (by simp [ended])]

theorem wordValue?_append {word : List Char} (wordChars : ∀ c ∈ word, isWordChar c = true) (rest : List Char) :
    wordValue? (word ++ '\n' :: rest) = (word? word).map fun value => (value, '\n' :: rest) := by
  simp only [wordValue?, takeWhile_append_cons wordChars (rfl : isWordChar '\n' = false),
    dropWhile_append_cons wordChars (rfl : isWordChar '\n' = false)]
  rfl

theorem readsAs_toDigits {n : Nat} (fits : n < 2 ^ 63) : ReadsAs (Nat.toDigits 10 n) (.integer n) := by
  have digits := isDigit_of_mem_toDigits n
  have wordChars : ∀ c ∈ Nat.toDigits 10 n, isWordChar c = true := by
    intro c mem
    simp [isWordChar, Char.isAlphanum, digits c mem]
  obtain ⟨first, tail, begun⟩ := List.exists_cons_of_ne_nil (Nat.toDigits_ne_nil (b := 10) (n := n))
  have differs {c : Char} (other : c.isDigit = false) : first ≠ c := by
    rintro rfl
    exact ne_cons_of_digits digits other tail begun
  constructor
  · intro rest
    rw [begun]
    apply skipBlanks_cons
    simp [isBlank, differs]
  · intro rest
    have word := wordValue?_append wordChars rest
    rw [word?_toDigits fits] at word
    rw [begun] at word ⊢
    rw [List.cons_append, value?_cons, if_neg, ← List.cons_append, word]
    · rfl
    · simp [differs]
    · exact differs rfl
    · exact differs rfl

/-! ### Keys -/

/-- A key that stands without quotation marks. -/
def Bare (key : String) : Prop :=
  key.toList ≠ [] ∧ ∀ c ∈ key.toList, isBareKeyChar c = true

/-- A bare key begins with none of the characters that mean something else. -/
theorem Bare.exists_cons {key : String} (bare : Bare key) :
    ∃ first rest, key.toList = first :: rest ∧ isBlank first = false ∧
      ∀ c, isBareKeyChar c = false → first ≠ c := by
  obtain ⟨first, rest, begun⟩ := List.exists_cons_of_ne_nil bare.1
  have differs : ∀ c, isBareKeyChar c = false → first ≠ c := by
    rintro c other rfl
    rw [bare.2 first (by simp [begun])] at other
    cases other
  refine ⟨first, rest, begun, ?_, differs⟩
  simp [isBlank, differs ' ' rfl, differs '\t' rfl]

/-- A bare key alone is a path, up to a character that is none of its own and no dot. -/
theorem Bare.keyPath?_append {key : String} (bare : Bare key) (c : Char) (rest : List Char)
    (ended : isBareKeyChar c = false) (alone : (skipBlanks (c :: rest)).head? ≠ some '.') :
    keyPath? (key.toList ++ c :: rest) = some ([key], skipBlanks (c :: rest)) := by
  obtain ⟨first, tail, begun, solid, differs⟩ := bare.exists_cons
  have taken := takeWhile_append_cons bare.2 ended rest
  have dropped := dropWhile_append_cons bare.2 ended rest
  have whole : String.ofList key.toList = key := String.ofList_toList
  rw [begun] at taken dropped whole ⊢
  rw [List.cons_append] at taken dropped ⊢
  have read : key? (first :: (tail ++ c :: rest)) = some (key, c :: rest) := by
    rw [key?, taken, dropped, ← whole]
    · simp [differs '"' rfl]
    · simp [differs '\'' rfl]
  rw [keyPath?, depthLimit, keys?, skipBlanks_cons solid, read, Option.bind_eq_bind, Option.bind_some]
  dsimp only
  split
  · rename_i dot
    exact absurd (by rw [dot]; rfl) alone
  · rfl

/-! ### Lines -/

/-- The line of a statement, with the line feed at its end. -/
inductive LineOf : Statement → List Char → Prop where
  | header {key : String} (bare : Bare key) : LineOf (.table [key]) ('[' :: (key.toList ++ [']', '\n']))
  | assignment {key text : String} {value : Value} (bare : Bare key) (reads : ReadsAs text.toList value) :
    LineOf (.assign [key] value) (assignmentLine key text).toList

theorem toList_assignmentLine (key text : String) :
    (assignmentLine key text).toList = key.toList ++ ' ' :: '=' :: ' ' :: (text.toList ++ ['\n']) := by
  simp [assignmentLine]

/-- No line begins with a blank, a comment, its own end or a byte order mark. -/
theorem LineOf.begins {statement : Statement} {line : List Char} (written : LineOf statement line) :
    ∃ first rest, line = first :: rest ∧ isBlank first = false ∧ first ≠ '#' ∧ first ≠ '\n' ∧ first ≠ '\r' ∧
      first ≠ '\ufeff' := by
  cases written with
  | header bare => exact ⟨'[', _, rfl, by decide⟩
  | @assignment key text value bare reads =>
    obtain ⟨first, tail, begun, solid, differs⟩ := bare.exists_cons
    rw [toList_assignmentLine, begun]
    exact ⟨first, _, rfl, solid, differs '#' rfl, differs '\n' rfl, differs '\r' rfl, differs '\ufeff' rfl⟩

theorem statement?_header {key : String} (bare : Bare key) (rest : List Char) :
    statement? ('[' :: (key.toList ++ ']' :: rest)) = some (.table [key], rest) := by
  have path := bare.keyPath?_append ']' rest rfl (by simp [skipBlanks_cons, isBlank])
  obtain ⟨first, tail, begun, _, differs⟩ := bare.exists_cons
  rw [begun] at path ⊢
  rw [List.cons_append] at path ⊢
  rw [statement?, path]
  · rfl
  · simp [differs '[' rfl]

theorem statement?_assignment {key : String} {text rest : List Char} {value : Value} (bare : Bare key)
    (reads : ReadsAs text value) :
    statement? (key.toList ++ ' ' :: '=' :: ' ' :: (text ++ '\n' :: rest)) =
      some (.assign [key] value, '\n' :: rest) := by
  have path := bare.keyPath?_append ' ' ('=' :: ' ' :: (text ++ '\n' :: rest)) rfl
    (by simp [skipBlanks, isBlank])
  have sign : skipBlanks (' ' :: '=' :: ' ' :: (text ++ '\n' :: rest)) = '=' :: ' ' :: (text ++ '\n' :: rest) :=
    rfl
  have skipped : skipBlanks (' ' :: (text ++ '\n' :: rest)) = text ++ '\n' :: rest :=
    reads.begins ('\n' :: rest)
  obtain ⟨first, tail, begun, _, differs⟩ := bare.exists_cons
  rw [sign] at path
  rw [begun] at path ⊢
  rw [List.cons_append] at path ⊢
  rw [statement?]
  · simp only [assignment?, path, Option.bind_eq_bind, Option.bind_some, skipped, reads.read, Option.map_some]
  · simp [differs '[' rfl]
  · simp [differs '[' rfl]

theorem LineOf.statement?_append {statement : Statement} {line : List Char} (written : LineOf statement line)
    (rest : List Char) : statement? (line ++ rest) = some (statement, '\n' :: rest) := by
  cases written with
  | header bare => simpa using statement?_header bare ('\n' :: rest)
  | assignment bare reads =>
    rw [toList_assignmentLine]
    simpa using statement?_assignment bare reads

/-- The end of a line is not read before its statement. -/
theorem LineOf.afterLine?_append {statement : Statement} {line : List Char} (written : LineOf statement line)
    (rest : List Char) : afterLine? (line ++ rest) = none := by
  obtain ⟨first, tail, rfl, solid, comment, feed, carriage, _⟩ := written.begins
  have stays : afterNewline? (first :: (tail ++ rest)) = none := by
    rw [afterNewline?]
    · simp [feed]
    · simp [carriage]
  rw [List.cons_append, afterLine?, skipBlanks_cons solid]
  simp [comment, stays]

/-! ### Documents -/

/-- The statements of a document, line by line. -/
inductive Document : List Statement → List Char → Prop where
  | nil : Document [] []
  | blank {statements : List Statement} {chars : List Char} (later : Document statements chars) :
    Document statements ('\n' :: chars)
  | line {statement : Statement} {statements : List Statement} {line chars : List Char}
    (written : LineOf statement line) (later : Document statements chars) :
    Document (statement :: statements) (line ++ chars)

/-- A document is read within as many lines as it has characters. -/
theorem Document.statements?_eq {statements : List Statement} {chars : List Char}
    (document : Document statements chars) {fuel : Nat} (enough : chars.length ≤ fuel) :
    statements? fuel chars = some statements := by
  induction document generalizing fuel with
  | nil => rw [statements?]
  | blank later ih =>
    obtain ⟨fuel, rfl⟩ := Nat.exists_eq_add_of_le' (Nat.one_le_of_lt enough)
    rw [statements?]
    · exact ih (Nat.le_of_succ_le_succ enough)
    · simp
  | @line statement statements line chars written later ih =>
    have occupied := written.afterLine?_append chars
    have read := written.statement?_append chars
    obtain ⟨first, tail, rfl, solid, _⟩ := written.begins
    rw [List.cons_append] at enough occupied read ⊢
    obtain ⟨fuel, rfl⟩ := Nat.exists_eq_add_of_le' (Nat.one_le_of_lt enough)
    have enough : chars.length ≤ fuel := by
      simp only [List.length_cons, List.length_append] at enough
      omega
    have next : afterLine? ('\n' :: chars) = some chars := rfl
    rw [statements?, occupied, skipBlanks_cons solid, read]
    · simp only [next, ih enough, Option.bind_eq_bind, Option.bind_some]
    · simp

theorem Document.parse?_eq {statements : List Statement} {text : String}
    (document : Document statements text.toList) : parse? text = ofStatements? statements := by
  have noMark : ∀ rest, text.toList ≠ '\ufeff' :: rest := by
    intro rest same
    rw [same] at document
    generalize begun : '\ufeff' :: rest = chars at document
    cases document with
    | nil => cases begun
    | blank => cases begun
    | line written =>
      obtain ⟨first, tail, rfl, _, _, _, _, noMark⟩ := written.begins
      exact noMark (List.cons.inj begun).1.symm
  have read := document.statements?_eq (Nat.le_refl _)
  unfold parse?
  split
  · rename_i mark
    exact absurd mark (noMark _)
  · simp only [read, Option.bind_eq_bind, Option.bind_some]

end Certified.Toml
