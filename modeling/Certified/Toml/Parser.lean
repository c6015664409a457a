import Certified.Toml.Number
import Certified.Toml.Tables

/-!
Reading TOML documents, version 1.0. Each reader works on the characters that are left and returns
what it read with the characters after it.
-/

namespace Certified.Toml

/-- Reads from the front of the characters that are left. -/
abbrev Reader (α : Type) := List Char → Option (α × List Char)

def isBlank (c : Char) : Bool :=
  c = ' ' ∨ c = '\t'

def skipBlanks (chars : List Char) : List Char :=
  chars.dropWhile isBlank

/-- Control characters other than the tab stand nowhere. -/
def isPlain (c : Char) : Bool :=
  c = '\t' ∨ (0x20 ≤ c.toNat ∧ c.toNat ≠ 0x7f)

/-- What follows a line feed, with or without a carriage return before it. -/
def afterNewline? : List Char → Option (List Char)
  | '\n' :: rest => some rest
  | '\r' :: '\n' :: rest => some rest
  | _ => none

/-- What follows the end of a line, before which blanks and a comment may stand. -/
def afterLine? (chars : List Char) : Option (List Char) :=
  let rest := match skipBlanks chars with
    | '#' :: rest => rest.dropWhile isPlain
    | rest => rest
  if rest.isEmpty then some [] else afterNewline? rest

/-- Skips blanks, ends of lines and comments. -/
def skipGaps : (inComment : Bool) → List Char → List Char
  | _, [] => []
  | _, '\n' :: rest => skipGaps false rest
  | inComment, '\r' :: rest =>
    if rest.head? = some '\n' then skipGaps inComment rest else '\r' :: rest
  | true, c :: rest => if isPlain c then skipGaps true rest else c :: rest
  | false, c :: rest =>
    if c = '#' then skipGaps true rest else if isBlank c then skipGaps false rest else c :: rest

/-! ### Strings -/

/-- The character of an escape of one letter. -/
def letterEscape? : Char → Option Char
  | 'b' => some '\x08'
  | 't' => some '\t'
  | 'n' => some '\n'
  | 'f' => some '\x0c'
  | 'r' => some '\r'
  | '"' => some '"'
  | '\\' => some '\\'
  | _ => none

/-- The character with a number in hexadecimal digits; halves of surrogate pairs are none. -/
def numberedChar? (digits : List Char) : Option Char := do
  let n := Radix.value 16 (← digits.mapM (Radix.digitOf? 16))
  if n.isValidChar then some (Char.ofNat n) else none

/-- Puts a character in front of what was read. -/
def consTo (c : Char) (read : Option (List Char × List Char)) : Option (List Char × List Char) :=
  read.map fun (chars, rest) => (c :: chars, rest)

/-- A string on one line after its opening double quotation mark. -/
def basic? : Reader (List Char)
  | '"' :: rest => some ([], rest)
  | '\\' :: 'u' :: a :: b :: c :: d :: rest => do
    consTo (← numberedChar? [a, b, c, d]) (basic? rest)
  | '\\' :: 'U' :: a :: b :: c :: d :: e :: f :: g :: h :: rest => do
    consTo (← numberedChar? [a, b, c, d, e, f, g, h]) (basic? rest)
  | '\\' :: letter :: rest => do consTo (← letterEscape? letter) (basic? rest)
  | c :: rest => if isPlain c then consTo c (basic? rest) else none
  | [] => none

/-- A string on one line after its opening single quotation mark. -/
def literal? : Reader (List Char)
  | '\'' :: rest => some ([], rest)
  | c :: rest => if isPlain c then consTo c (literal? rest) else none
  | [] => none

/-- After a backslash at the end of a line the text goes on at the next character that is not blank. -/
def lineContinues (chars : List Char) : Bool :=
  (afterNewline? (skipBlanks chars)).isSome

/-- A string over several lines after three double quotation marks. Up to two more marks may stand
before the three that close it. While `skipping`, blanks and ends of lines are passed over. -/
def multilineBasic? : (skipping : Bool) → Reader (List Char)
  | _, '"' :: '"' :: '"' :: '"' :: '"' :: rest => some (['"', '"'], rest)
  | _, '"' :: '"' :: '"' :: '"' :: rest => some (['"'], rest)
  | _, '"' :: '"' :: '"' :: rest => some ([], rest)
  | _, '\\' :: 'u' :: a :: b :: c :: d :: rest => do
    consTo (← numberedChar? [a, b, c, d]) (multilineBasic? false rest)
  | _, '\\' :: 'U' :: a :: b :: c :: d :: e :: f :: g :: h :: rest => do
    consTo (← numberedChar? [a, b, c, d, e, f, g, h]) (multilineBasic? false rest)
  | _, '\\' :: c :: rest =>
    if lineContinues (c :: rest) then multilineBasic? true (c :: rest)
    else do consTo (← letterEscape? c) (multilineBasic? false rest)
  | skipping, '\r' :: '\n' :: rest =>
    if skipping then multilineBasic? true rest else consTo '\n' (multilineBasic? false rest)
  | skipping, c :: rest =>
    if skipping && (isBlank c || c == '\n') then multilineBasic? true rest
    else if isPlain c || c == '\n' then consTo c (multilineBasic? false rest)
    else none
  | _, [] => none

/-- A string over several lines after three single quotation marks. -/
def multilineLiteral? : Reader (List Char)
  | '\'' :: '\'' :: '\'' :: '\'' :: '\'' :: rest => some (['\'', '\''], rest)
  | '\'' :: '\'' :: '\'' :: '\'' :: rest => some (['\''], rest)
  | '\'' :: '\'' :: '\'' :: rest => some ([], rest)
  | '\r' :: '\n' :: rest => consTo '\n' (multilineLiteral? rest)
  | c :: rest => if isPlain c || c == '\n' then consTo c (multilineLiteral? rest) else none
  | [] => none

/-- The end of a line right after the opening marks does not belong to the string. -/
def skipFirstNewline (chars : List Char) : List Char :=
  (afterNewline? chars).getD chars

/-- A string in any of its four forms. -/
def string? : Reader String := fun chars => do
  let (text, rest) ← match chars with
    | '"' :: '"' :: '"' :: rest => multilineBasic? false (skipFirstNewline rest)
    | '\'' :: '\'' :: '\'' :: rest => multilineLiteral? (skipFirstNewline rest)
    | '"' :: rest => basic? rest
    | '\'' :: rest => literal? rest
    | _ => none
  some (String.ofList text, rest)

/-! ### Keys -/

def isBareKeyChar (c : Char) : Bool :=
  c.isAlphanum || c == '_' || c == '-'

/-- A bare key, or a string on one line. -/
def key? : Reader String := fun chars =>
  match chars with
  | '"' :: rest => (basic? rest).map fun (text, rest) => (String.ofList text, rest)
  | '\'' :: rest => (literal? rest).map fun (text, rest) => (String.ofList text, rest)
  | _ =>
    match chars.takeWhile isBareKeyChar with
    | [] => none
    | bare => some (String.ofList bare, chars.dropWhile isBareKeyChar)

/-- The number of keys that may be joined by dots, and of arrays and inline tables that may be
open at once. -/
def depthLimit : Nat := 79

/-- Keys joined by dots, at most `count` of them. -/
def keys? : (count : Nat) → Reader KeyPath
  | 0, _ => none
  | count + 1, chars => do
    let (key, rest) ← key? (skipBlanks chars)
    match skipBlanks rest with
    | '.' :: rest => (keys? count rest).map fun (path, rest) => (key :: path, rest)
    | rest => some ([key], rest)

def keyPath? : Reader KeyPath :=
  keys? depthLimit

/-! ### Values -/

def isWordChar (c : Char) : Bool :=
  c.isAlphanum || c == '+' || c == '-' || c == '_' || c == '.' || c == ':'

/-- A number, date or truth value. Between a date and a time of day there may be a single space. -/
def wordValue? : Reader Value := fun chars =>
  let word := chars.takeWhile isWordChar
  let rest := chars.dropWhile isWordChar
  match rest with
  | ' ' :: time =>
    let more := time.takeWhile isWordChar
    if afterDate? word = some [] ∧ (afterTime? more).isSome then
      (word? (word ++ ' ' :: more)).map fun value => (value, time.dropWhile isWordChar)
    else (word? word).map fun value => (value, rest)
  | _ => (word? word).map fun value => (value, rest)

/-- The elements of an array and its closing bracket. The fuel bounds the number of elements. -/
def items? (read : Reader Value) : Nat → Reader (List Value)
  | 0, _ => none
  | fuel + 1, chars =>
    match skipGaps false chars with
    | ']' :: rest => some ([], rest)
    | chars => do
      let (value, rest) ← read chars
      match skipGaps false rest with
      | ',' :: rest => (items? read fuel rest).map fun (values, rest) => (value :: values, rest)
      | ']' :: rest => some ([value], rest)
      | _ => none

/-- A key path, an equals sign and a value. -/
def assignment? (read : Reader Value) : Reader (KeyPath × Value) := fun chars => do
  let (path, rest) ← keyPath? chars
  match rest with
  | '=' :: rest =>
    let (value, rest) ← read (skipBlanks rest)
    some ((path, value), rest)
  | _ => none

/-- At least one assignment between braces, and the closing brace. -/
def assignments? (read : Reader Value) : Nat → Reader (List (KeyPath × Value))
  | 0, _ => none
  | fuel + 1, chars => do
    let (assignment, rest) ← assignment? read chars
    match skipBlanks rest with
    | ',' :: rest =>
      (assignments? read fuel rest).map fun (assignments, rest) => (assignment :: assignments, rest)
    | '\x7d' :: rest => some ([assignment], rest)
    | _ => none

/-- A value whose elements are read by `nested`, or which may hold none. -/
def valueWith? (nested : Option (Reader Value)) : Reader Value := fun chars =>
  match chars with
  | '[' :: rest => do
    let (items, rest) ← items? (← nested) (rest.length + 1) rest
    some (.array items, rest)
  | '\x7b' :: rest => do
    let read ← nested
    let (assignments, rest) ← match skipBlanks rest with
      | '\x7d' :: rest => some ([], rest)
      | rest => assignments? read (rest.length + 1) rest
    some (← inlineTable? assignments, rest)
  | c :: _ =>
    if c = '"' ∨ c = '\'' then (string? chars).map fun (text, rest) => (.string text, rest)
    else wordValue? chars
  | [] => none

/-- A value in which at most `depth` arrays and inline tables are open at once. -/
def value? : (depth : Nat) → Reader Value
  | 0 => valueWith? none
  | depth + 1 => valueWith? (some (value? depth))

/-! ### Documents -/

/-- The statement on a line that is not empty. -/
def statement? : Reader Statement := fun chars =>
  match chars with
  | '[' :: '[' :: rest => do
    match ← keyPath? rest with
    | (path, ']' :: ']' :: rest) => some (.element path, rest)
    | _ => none
  | '[' :: rest => do
    match ← keyPath? rest with
    | (path, ']' :: rest) => some (.table path, rest)
    | _ => none
  | _ => (assignment? (value? depthLimit) chars).map fun ((path, value), rest) =>
    (.assign path value, rest)

/-- The statements of the lines that are left. The fuel bounds the number of lines. -/
def statements? : Nat → List Char → Option (List Statement)
  | _, [] => some []
  | 0, _ => none
  | fuel + 1, chars => do
    match afterLine? chars with
    | some rest => statements? fuel rest
    | none =>
      let (statement, rest) ← statement? (skipBlanks chars)
      let statements ← statements? fuel (← afterLine? rest)
      some (statement :: statements)

/-- The table of a document. A byte order mark may stand in front. -/
def parse? (text : String) : Option (List (String × Value)) := do
  let chars := match text.toList with
    | '\ufeff' :: chars => chars
    | chars => chars
  ofStatements? (← statements? chars.length chars)

end Certified.Toml
