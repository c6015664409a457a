import Mathlib
import Certified.Radix.Lemmas
import Certified.Toml.Parser
import Certified.Toml.Printer

/-!
TOML strings read back, in whichever form they are written. The forms differ in the quotation marks that may
stand in the text: none, any but in rows of three, or none without a backslash before it.
-/

namespace Certified.Toml

/-! ### Characters -/

theorem isPlain_of_not_control {c : Char} (plain : isControl c = false) (sameLine : c ≠ '\n') :
    isPlain c = true := by
  simp only [isControl, Bool.or_eq_false_iff, Bool.and_eq_false_iff, decide_eq_false_iff_not,
    bne_eq_false_iff_eq, beq_eq_false_iff_ne] at plain
  obtain ⟨(large | rfl) | rfl, notDelete⟩ := plain
  · exact decide_eq_true (.inr ⟨Nat.not_lt.mp large, notDelete⟩)
  · rfl
  · exact absurd rfl sameLine

theorem toUpper_digitChar : ∀ d < 16, Radix.digitOf? 16 (Nat.digitChar d).toUpper = some d := by
  decide

theorem mapM_digitOf?_toUpper {ds : List Nat} (small : ∀ d ∈ ds, d < 16) :
    (ds.map fun d => (Nat.digitChar d).toUpper).mapM (Radix.digitOf? 16) = some ds := by
  induction ds with
  | nil => rfl
  | cons d ds ih =>
    obtain ⟨first, rest⟩ := List.forall_mem_cons.mp small
    rw [List.map_cons, List.mapM_cons, toUpper_digitChar d first, ih rest]
    rfl

/-- A character of sixteen bits is read from the four digits of its number. -/
theorem numberedChar?_digits {c : Char} (small : c.toNat < 16 ^ 4) :
    numberedChar? ((Radix.digits 16 4 c.toNat).map fun d => (Nat.digitChar d).toUpper) = some c := by
  have digits : ∀ d ∈ Radix.digits 16 4 c.toNat, d < 16 := fun d mem => Radix.lt_of_mem_digits (by omega) mem
  have value : Radix.value 16 (Radix.digits 16 4 c.toNat) = c.toNat := by
    rw [Radix.value_digits, Nat.mod_eq_of_lt small]
  have valid : c.toNat.isValidChar := c.valid
  rw [numberedChar?, mapM_digitOf?_toUpper digits]
  simp only [Option.bind_eq_bind, Option.bind_some, value, valid, if_true, Char.ofNat_toNat]

/-- How a character other than a quotation mark may be written: as a backslash with a letter or with the number
of the character, or as it is. -/
inductive Escaped (multiline : Bool) (c : Char) : List Char → Prop where
  | letter {letter : Char} (read : letterEscape? letter = some c) : Escaped multiline c ['\\', letter]
  | number {w x y z : Char} (read : numberedChar? [w, x, y, z] = some c) :
    Escaped multiline c ['\\', 'u', w, x, y, z]
  | plain (plain : isPlain c = true) (noMark : c ≠ '"') (noEscape : c ≠ '\\') : Escaped multiline c [c]
  | newline (several : multiline = true) (newline : c = '\n') : Escaped multiline c [c]

theorem escaped_escape (multiline : Bool) {c : Char} (noMark : c ≠ '"') :
    Escaped multiline c (escape multiline c) := by
  unfold escape
  split_ifs with backspace tab newline several feed carriage backslash control
  · exact .letter (by rw [backspace]; rfl)
  · exact .letter (by rw [tab]; rfl)
  · exact .newline several newline
  · exact .letter (by rw [newline]; rfl)
  · exact .letter (by rw [feed]; rfl)
  · exact .letter (by rw [carriage]; rfl)
  · exact .letter (by rw [backslash]; rfl)
  · have small : c.toNat < 16 ^ 4 := by
      simp only [isControl, Bool.or_eq_true, Bool.and_eq_true, decide_eq_true_eq, beq_iff_eq] at control
      omega
    have read := numberedChar?_digits small
    have length : ((Radix.digits 16 4 c.toNat).map fun d => (Nat.digitChar d).toUpper).length = 4 := by
      rw [List.length_map, Radix.length_digits]
    generalize (Radix.digits 16 4 c.toNat).map _ = ds at read length ⊢
    match ds, length with
    | [w, x, y, z], _ => exact .number read
  · exact .plain (isPlain_of_not_control (eq_false_of_ne_true control) newline) noMark backslash

/-- The letters of escapes are no blanks, end no line and announce no number. -/
theorem solid_of_letterEscape? {letter c : Char} (read : letterEscape? letter = some c) :
    isBlank letter = false ∧ letter ≠ '\n' ∧ letter ≠ '\r' ∧ letter ≠ 'u' ∧ letter ≠ 'U' := by
  unfold letterEscape? at read
  split at read <;> cases read <;> decide

/-! ### Strings on one line -/

theorem Escaped.basic?_append {c : Char} {piece : List Char} (escaped : Escaped false c piece)
    (rest : List Char) : basic? (piece ++ rest) = consTo c (basic? rest) := by
  cases escaped with
  | letter read =>
    obtain ⟨_, _, _, notNumber, notLong⟩ := solid_of_letterEscape? read
    rw [List.cons_append, List.cons_append, List.nil_append, basic?, read]
    · rfl
    · simp [notNumber]
    · simp [notLong]
  | number read =>
    simp only [List.cons_append, List.nil_append, basic?, read]
    rfl
  | plain plain noMark noEscape =>
    rw [List.cons_append, List.nil_append, basic?, if_pos plain]
    · exact noMark
    · simp [noEscape]
    · simp [noEscape]
    · simp [noEscape]
  | newline several => cases several

theorem escaped_cons_of_ne (multiline : Bool) (run : Nat) {c : Char} (noMark : c ≠ '"') (chars : List Char) :
    escaped multiline run (c :: chars) = escape multiline c ++ escaped multiline 0 chars := by
  rw [escaped]
  exact noMark

/-- A text with escapes reads back up to the mark that closes it. -/
theorem basic?_escaped (chars rest : List Char) :
    basic? (escaped false 0 chars ++ '"' :: rest) = some (chars, rest) := by
  induction chars with
  | nil => rfl
  | cons c chars ih =>
    by_cases mark : c = '"'
    · have escape : escaped false 0 ('"' :: chars) = ['\\', '"'] ++ escaped false 0 chars := rfl
      have read : Escaped false '"' ['\\', '"'] := .letter rfl
      rw [mark, escape, List.append_assoc, read.basic?_append, ih]
      rfl
    · rw [escaped_cons_of_ne false 0 mark, List.append_assoc,
        (escaped_escape false mark).basic?_append, ih]
      rfl

/-- A text without a mark, a control character and a line feed stands as it is. -/
theorem literal?_append {chars : List Char} (plain : ∀ c ∈ chars, isPlain c = true) (noMark : '\'' ∉ chars)
    (rest : List Char) : literal? (chars ++ '\'' :: rest) = some (chars, rest) := by
  induction chars with
  | nil => rfl
  | cons c chars ih =>
    obtain ⟨first, later⟩ := List.forall_mem_cons.mp plain
    obtain ⟨ne, noMark⟩ := not_or.mp (mt List.mem_cons.mpr noMark)
    rw [List.cons_append, literal?, if_pos first, ih later noMark]
    · rfl
    · exact Ne.symm ne

/-! ### Strings over several lines -/

theorem lineContinues_of_solid {c : Char} (notBlank : isBlank c = false) (notFeed : c ≠ '\n')
    (notReturn : c ≠ '\r') (rest : List Char) : lineContinues (c :: rest) = false := by
  rw [lineContinues, skipBlanks, List.dropWhile_cons_of_neg (by simp [notBlank]), afterNewline?]
  · rfl
  · simp [notFeed]
  · simp [notReturn]

theorem Escaped.multilineBasic?_append {c : Char} {piece : List Char} (escaped : Escaped true c piece)
    (rest : List Char) : multilineBasic? false (piece ++ rest) = consTo c (multilineBasic? false rest) := by
  cases escaped with
  | letter read =>
    obtain ⟨notBlank, notFeed, notReturn, notNumber, notLong⟩ := solid_of_letterEscape? read
    rw [List.cons_append, List.cons_append, List.nil_append, multilineBasic?,
      lineContinues_of_solid notBlank notFeed notReturn, read]
    · rfl
    · simp [notNumber]
    · simp [notLong]
  | number read =>
    simp only [List.cons_append, List.nil_append, multilineBasic?, read]
    rfl
  | plain plain noMark noEscape =>
    have notReturn : c ≠ '\r' := by
      rintro rfl
      cases plain
    rw [List.cons_append, List.nil_append, multilineBasic?, plain]
    · rfl
    all_goals simp [noMark, noEscape, notReturn]
  | newline several newline =>
    rw [newline, List.cons_append, List.nil_append, multilineBasic?]
    · rfl
    all_goals simp

/-- A reader that stops at three marks, before which up to two more may stand that belong to the text. -/
structure StopsAt (mark : Char) (read : Reader (List Char)) : Prop where
  one : ∀ chars, (∀ rest, chars ≠ mark :: mark :: rest) → read (mark :: chars) = consTo mark (read chars)
  three : ∀ rest, rest.head? ≠ some mark → read (mark :: mark :: mark :: rest) = some ([], rest)
  four : ∀ rest, rest.head? ≠ some mark → read (mark :: mark :: mark :: mark :: rest) = some ([mark], rest)
  five : ∀ rest, read (mark :: mark :: mark :: mark :: mark :: rest) = some ([mark, mark], rest)

/-- Up to two marks that no other follows belong to the text. -/
theorem StopsAt.marks {mark : Char} {read : Reader (List Char)} (stops : StopsAt mark read) {run : Nat}
    (few : run ≤ 2) {chars : List Char} (other : chars.head? ≠ some mark) :
    read (List.replicate run mark ++ chars) =
      (read chars).map fun (text, rest) => (List.replicate run mark ++ text, rest) := by
  have one : read (mark :: chars) = consTo mark (read chars) := by
    apply stops.one
    rintro rest rfl
    exact other rfl
  match run, few with
  | 0, _ => simp
  | 1, _ => exact one
  | 2, _ =>
    have two : read (mark :: mark :: chars) = consTo mark (read (mark :: chars)) := by
      apply stops.one
      intro rest same
      rw [(List.cons.inj same).2] at other
      exact other rfl
    rw [List.replicate_succ, List.replicate_succ, List.replicate_zero, List.cons_append, List.cons_append,
      List.nil_append, two, one]
    cases read chars <;> rfl

/-- The marks that close a string, with up to two before them that belong to it. -/
theorem StopsAt.close {mark : Char} {read : Reader (List Char)} (stops : StopsAt mark read) {run : Nat}
    (few : run ≤ 2) {rest : List Char} (other : rest.head? ≠ some mark) :
    read (List.replicate run mark ++ mark :: mark :: mark :: rest) = some (List.replicate run mark, rest) := by
  match run, few with
  | 0, _ => exact stops.three rest other
  | 1, _ => exact stops.four rest other
  | 2, _ => exact stops.five rest

theorem multilineBasic?_stopsAt : StopsAt '"' (multilineBasic? false) := by
  constructor
  · intro chars alone
    rw [multilineBasic?]
    · rfl
    all_goals simp_all
  · intro rest other
    rw [multilineBasic?]
    all_goals
      rintro _ rfl
      exact other rfl
  · intro rest other
    rw [multilineBasic?]
    rintro _ rfl
    exact other rfl
  · exact fun _ => rfl

theorem multilineLiteral?_stopsAt : StopsAt '\'' multilineLiteral? := by
  constructor
  · intro chars alone
    rw [multilineLiteral?]
    · rfl
    all_goals simp_all
  · intro rest other
    rw [multilineLiteral?]
    all_goals
      rintro _ rfl
      exact other rfl
  · intro rest other
    rw [multilineLiteral?]
    rintro _ rfl
    exact other rfl
  · exact fun _ => rfl

theorem Escaped.head?_ne {multiline : Bool} {c : Char} {piece : List Char}
    (escaped : Escaped multiline c piece) (noMark : c ≠ '"') (rest : List Char) :
    (piece ++ rest).head? ≠ some '"' := by
  cases escaped <;> simp [noMark]

theorem escaped_mark (run : Nat) (chars : List Char) :
    escaped true run ('"' :: chars) =
      if run < 2 then '"' :: escaped true (run + 1) chars else '\\' :: '"' :: escaped true 0 chars := rfl

/-- The marks before the text count for how many may follow them. -/
theorem multilineBasic?_escaped {run : Nat} (few : run ≤ 2) (chars : List Char) {rest : List Char}
    (other : rest.head? ≠ some '"') :
    multilineBasic? false
        (List.replicate run '"' ++ (escaped true run chars ++ '"' :: '"' :: '"' :: rest)) =
      some (List.replicate run '"' ++ chars, rest) := by
  induction chars generalizing run with
  | nil =>
    rw [escaped, List.nil_append, multilineBasic?_stopsAt.close few other, List.append_nil]
  | cons c chars ih =>
    have next := ih (Nat.zero_le 2)
    rw [List.replicate_zero, List.nil_append] at next
    by_cases mark : c = '"'
    · subst mark
      by_cases room : run < 2
      · have further := ih (Nat.succ_le_of_lt room)
        rw [List.replicate_succ', List.append_assoc, List.append_assoc] at further
        rw [escaped_mark, if_pos room]
        exact further
      · -- Two marks stand before this one, so it has a backslash.
        have written : Escaped true '"' ['\\', '"'] := .letter rfl
        have read := written.multilineBasic?_append (escaped true 0 chars ++ '"' :: '"' :: '"' :: rest)
        rw [next] at read
        rw [escaped_mark, if_neg room, multilineBasic?_stopsAt.marks few (by simp)]
        exact congrArg _ read
    · have written := escaped_escape true mark
      rw [escaped_cons_of_ne true run mark, List.append_assoc,
        multilineBasic?_stopsAt.marks few (written.head?_ne mark _), written.multilineBasic?_append, next]
      rfl

theorem multilineLiteral?_cons {c : Char} (plain : isPlain c = true ∨ c = '\n') (noMark : c ≠ '\'')
    (chars : List Char) : multilineLiteral? (c :: chars) = consTo c (multilineLiteral? chars) := by
  have notReturn : c ≠ '\r' := by
    rintro rfl
    exact absurd plain (by decide)
  have stands : (isPlain c || c == '\n') = true := by simpa using plain
  rw [multilineLiteral?, if_pos stands]
  all_goals simp [noMark, notReturn]

theorem le_longestRun (mark : Char) (run : Nat) (chars : List Char) : run ≤ longestRun mark run chars := by
  induction chars generalizing run with
  | nil => exact Nat.le_refl run
  | cons c chars ih =>
    rw [longestRun]
    split
    · exact (Nat.le_succ run).trans (ih (run + 1))
    · exact Nat.le_max_left ..

/-- A text in which at most two marks stand in a row, the marks before it included, reads back. -/
theorem multilineLiteral?_append {run : Nat} {chars : List Char} (short : longestRun '\'' run chars ≤ 2)
    (plain : ∀ c ∈ chars, isPlain c = true ∨ c = '\n') {rest : List Char} (other : rest.head? ≠ some '\'') :
    multilineLiteral? (List.replicate run '\'' ++ (chars ++ '\'' :: '\'' :: '\'' :: rest)) =
      some (List.replicate run '\'' ++ chars, rest) := by
  have few : run ≤ 2 := (le_longestRun ..).trans short
  induction chars generalizing run with
  | nil => rw [List.nil_append, multilineLiteral?_stopsAt.close few other, List.append_nil]
  | cons c chars ih =>
    obtain ⟨first, later⟩ := List.forall_mem_cons.mp plain
    rw [longestRun] at short
    split at short
    · rename_i mark
      have further := ih short later ((le_longestRun ..).trans short)
      rw [List.replicate_succ', List.append_assoc, List.append_assoc] at further
      rw [mark]
      exact further
    · rename_i noMark
      have next := ih ((Nat.le_max_right ..).trans short) later (Nat.zero_le 2)
      rw [List.replicate_zero, List.nil_append] at next
      rw [List.cons_append, multilineLiteral?_stopsAt.marks few (by simpa using noMark),
        multilineLiteral?_cons first noMark, next]
      rfl

/-! ### Strings in the form that is written -/

/-- No string begins here. -/
def NoMark (chars : List Char) : Prop :=
  chars.head? ≠ some '"' ∧ chars.head? ≠ some '\''

theorem not_mem_of_longestRun {mark : Char} {chars : List Char} (none : longestRun mark 0 chars = 0) :
    mark ∉ chars := by
  induction chars with
  | nil => exact List.not_mem_nil
  | cons c chars ih =>
    rw [longestRun] at none
    split at none
    · have := le_longestRun mark (0 + 1) chars
      omega
    · rename_i other
      rw [Nat.max_eq_zero_iff] at none
      rw [List.mem_cons, not_or]
      exact ⟨Ne.symm other, ih none.2⟩

/-- The texts for which a form is chosen. Without escapes a text has to fit the form. -/
inductive Chosen (chars : List Char) : StringForm → Prop where
  | basic : Chosen chars .basic
  | literal (plain : ∀ c ∈ chars, isControl c = false) (noMark : '\'' ∉ chars) (sameLine : '\n' ∉ chars) :
    Chosen chars .literal
  | multilineBasic : Chosen chars .multilineBasic
  | multilineLiteral (plain : ∀ c ∈ chars, isControl c = false) (short : longestRun '\'' 0 chars ≤ 2) :
    Chosen chars .multilineLiteral

theorem chosen_ofChars (chars : List Char) : Chosen chars (StringForm.ofChars chars) := by
  have plain (control : (!chars.any isControl) = true) : ∀ c ∈ chars, isControl c = false := by
    simpa using control
  unfold StringForm.ofChars
  dsimp only
  split_ifs with _ literal _ several
  · exact .basic
  · simp only [Bool.and_eq_true, decide_eq_true_eq, Bool.not_eq_true', List.contains_eq_mem,
      decide_eq_false_iff_not] at literal
    exact .literal (plain (by simpa using literal.1.1)) (not_mem_of_longestRun literal.1.2) literal.2
  · exact .multilineBasic
  · simp only [Bool.and_eq_true, decide_eq_true_eq] at several
    exact .multilineLiteral (plain several.1) several.2
  · exact .multilineBasic
  · exact .basic

/-- The line feed that is written in front of several lines is skipped, and nothing else is. -/
theorem skipFirstNewline_append {chars text : List Char}
    (begins : '\n' ∉ chars → text.head? ≠ some '\n' ∧ text.head? ≠ some '\r') :
    skipFirstNewline (firstNewline chars ++ text) = text := by
  by_cases newline : '\n' ∈ chars
  · simp [firstNewline, newline, skipFirstNewline, afterNewline?]
  · obtain ⟨notFeed, notReturn⟩ := begins newline
    have stays : afterNewline? text = none := by
      unfold afterNewline?
      split <;> simp_all
    simp [firstNewline, newline, skipFirstNewline, stays]

theorem string?_basic {body chars rest : List Char} (read : basic? body = some (chars, rest))
    (alone : ∀ more, body ≠ '"' :: '"' :: more) :
    string? ('"' :: body) = some (String.ofList chars, rest) := by
  unfold string?
  split <;> simp_all

theorem string?_literal {body chars rest : List Char} (read : literal? body = some (chars, rest))
    (alone : ∀ more, body ≠ '\'' :: '\'' :: more) :
    string? ('\'' :: body) = some (String.ofList chars, rest) := by
  unfold string?
  split <;> simp_all

theorem string?_multilineBasic {body chars rest : List Char}
    (read : multilineBasic? false (skipFirstNewline body) = some (chars, rest)) :
    string? ('"' :: '"' :: '"' :: body) = some (String.ofList chars, rest) := by
  rw [string?, read]
  rfl

theorem string?_multilineLiteral {body chars rest : List Char}
    (read : multilineLiteral? (skipFirstNewline body) = some (chars, rest)) :
    string? ('\'' :: '\'' :: '\'' :: body) = some (String.ofList chars, rest) := by
  rw [string?, read]
  rfl

theorem Escaped.head?_solid {c : Char} {piece : List Char} (escaped : Escaped true c piece)
    (sameLine : c ≠ '\n') (rest : List Char) :
    (piece ++ rest).head? ≠ some '\n' ∧ (piece ++ rest).head? ≠ some '\r' := by
  cases escaped with
  | letter | number => simp
  | plain plain =>
    refine ⟨by simpa using sameLine, ?_⟩
    rintro same
    cases same
    cases plain
  | newline _ newline => exact absurd newline sameLine

/-- After the mark that opens a string on one line there are no two more. -/
theorem escaped_ne_marks (chars : List Char) {rest : List Char} (ended : NoMark rest) (more : List Char) :
    escaped false 0 chars ++ '"' :: rest ≠ '"' :: '"' :: more := by
  intro same
  cases chars with
  | nil =>
    cases same
    exact ended.1 rfl
  | cons c chars =>
    by_cases mark : c = '"'
    · subst mark
      cases same
    · rw [escaped_cons_of_ne false 0 mark, List.append_assoc] at same
      apply (escaped_escape false mark).head?_ne mark (escaped false 0 chars ++ '"' :: rest)
      rw [same]
      rfl

theorem escaped_begins {chars : List Char} (sameLine : '\n' ∉ chars) (rest : List Char) :
    (escaped true 0 chars ++ '"' :: rest).head? ≠ some '\n' ∧
      (escaped true 0 chars ++ '"' :: rest).head? ≠ some '\r' := by
  cases chars with
  | nil => simp [escaped]
  | cons c chars =>
    by_cases mark : c = '"'
    · subst mark
      simp [escaped_mark]
    · rw [escaped_cons_of_ne true 0 mark, List.append_assoc]
      exact (escaped_escape true mark).head?_solid (fun feed => sameLine (by simp [feed])) _

/-- A text that is written as a string reads back from it. -/
theorem string?_writeString (text : String) {rest : List Char} (ended : NoMark rest) :
    string? ((writeString text).toList ++ rest) = some (text, rest) := by
  have chosen := chosen_ofChars text.toList
  have whole : String.ofList text.toList = text := String.ofList_toList
  rw [writeString, String.toList_ofList]
  generalize text.toList = chars at chosen whole ⊢
  subst whole
  generalize StringForm.ofChars chars = form at chosen ⊢
  cases chosen with
  | basic =>
    simp only [List.cons_append, List.nil_append, List.append_assoc]
    exact string?_basic (basic?_escaped chars rest) (escaped_ne_marks chars ended)
  | literal plain noMark sameLine =>
    have stands : ∀ c ∈ chars, isPlain c = true := fun c mem =>
      isPlain_of_not_control (plain c mem) fun feed => sameLine (feed ▸ mem)
    simp only [List.cons_append, List.nil_append, List.append_assoc]
    apply string?_literal (literal?_append stands noMark rest)
    intro more same
    cases chars with
    | nil =>
      cases same
      exact ended.2 rfl
    | cons c chars =>
      obtain ⟨rfl, _⟩ := List.cons.inj same
      exact noMark List.mem_cons_self
  | multilineBasic =>
    have read := multilineBasic?_escaped (Nat.zero_le 2) chars ended.1
    simp only [List.cons_append, List.nil_append, List.append_assoc]
    apply string?_multilineBasic
    rw [skipFirstNewline_append]
    · exact read
    · exact fun sameLine => escaped_begins sameLine _
  | multilineLiteral plain short =>
    have stands : ∀ c ∈ chars, isPlain c = true ∨ c = '\n' := by
      intro c mem
      by_cases feed : c = '\n'
      · exact .inr feed
      · exact .inl (isPlain_of_not_control (plain c mem) feed)
    have read := multilineLiteral?_append short stands ended.2
    simp only [List.cons_append, List.nil_append, List.append_assoc]
    apply string?_multilineLiteral
    rw [skipFirstNewline_append]
    · exact read
    · intro sameLine
      cases chars with
      | nil => simp
      | cons c chars =>
        have control := plain c List.mem_cons_self
        constructor <;> rintro same <;> cases same
        · exact sameLine List.mem_cons_self
        · cases control

end Certified.Toml
