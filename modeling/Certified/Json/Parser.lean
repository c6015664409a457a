import Certified.Json.Basic
import Certified.Text.Decimal

/-!
Reading JSON texts. Each reader works on the characters that are left and returns what it read with
the characters after it.
-/

namespace Certified.Json

def isBlank (c : Char) : Bool :=
  c == ' ' || c == '\t' || c == '\n' || c == '\r'

def skipBlanks (chars : List Char) : List Char :=
  chars.dropWhile isBlank

/-- A non-empty run of digits. -/
def digits? (chars : List Char) : Option (List Char × List Char) :=
  match chars.takeWhile Char.isDigit with
  | [] => none
  | ds => some (ds, chars.dropWhile Char.isDigit)

/-- The digits after a point, if there is a point. -/
def fraction? : List Char → Option (List Char × List Char)
  | '.' :: rest => (digits? rest).map fun (ds, rest) => ('.' :: ds, rest)
  | chars => some ([], chars)

def exponent? : List Char → Option (List Char × List Char)
  | e :: rest =>
    if e = 'e' ∨ e = 'E' then
      match rest with
      | sign :: digits =>
        if sign = '+' ∨ sign = '-' then
          (digits? digits).map fun (ds, rest) => (e :: sign :: ds, rest)
        else (digits? (sign :: digits)).map fun (ds, rest) => (e :: ds, rest)
      | [] => none
    else some ([], e :: rest)
  | [] => some ([], [])

/-- Whole digits: a zero stands alone. -/
def whole? : List Char → Option (List Char × List Char)
  | '0' :: rest => some (['0'], rest)
  | chars => digits? chars

def number? (chars : List Char) : Option (Json × List Char) := do
  let (negative, unsigned) := match chars with
    | '-' :: rest => (true, rest)
    | _ => (false, chars)
  let (whole, rest) ← whole? unsigned
  let (fraction, rest) ← fraction? rest
  let (exponent, rest) ← exponent? rest
  let n := Radix.value 10 (← whole.mapM (Radix.digitOf? 10))
  if fraction.isEmpty && exponent.isEmpty && !(negative && n == 0) then
    some (.integer (Radix.signed negative n), rest)
  else
    some (.decimal (String.ofList ((if negative then ['-'] else []) ++ whole ++ fraction ++ exponent)),
      rest)

/-- A piece of a string: a character, or a UTF-16 unit given by an escape. -/
inductive Piece where
  | char (c : Char)
  | unit (n : Nat)

/-- The pieces up to the closing quotation mark. -/
def pieces? : List Char → Option (List Piece × List Char)
  | '"' :: rest => some ([], rest)
  | '\\' :: 'u' :: a :: b :: c :: d :: rest => do
    let unit := Radix.value 16 (← [a, b, c, d].mapM (Radix.digitOf? 16))
    let (pieces, rest) ← pieces? rest
    some (.unit unit :: pieces, rest)
  | '\\' :: e :: rest => do
    let c ← match e with
      | '"' => some '"'
      | '\\' => some '\\'
      | '/' => some '/'
      | 'b' => some '\x08'
      | 'f' => some '\x0c'
      | 'n' => some '\n'
      | 'r' => some '\r'
      | 't' => some '\t'
      | _ => none
    let (pieces, rest) ← pieces? rest
    some (.char c :: pieces, rest)
  | c :: rest =>
    if c.toNat < 0x20 then none
    else do
      let (pieces, rest) ← pieces? rest
      some (.char c :: pieces, rest)
  | [] => none

/-- The text of pieces. Two units may be the halves of one character; a half alone has no text. -/
def joinPieces? : List Piece → Option (List Char)
  | [] => some []
  | .char c :: rest => (joinPieces? rest).map (c :: ·)
  | .unit high :: .unit low :: rest =>
    if 0xd800 ≤ high ∧ high < 0xdc00 then
      if 0xdc00 ≤ low ∧ low < 0xe000 then
        (joinPieces? rest).map (Char.ofNat (0x10000 + 0x400 * (high - 0xd800) + (low - 0xdc00)) :: ·)
      else none
    else if 0xdc00 ≤ high ∧ high < 0xe000 then none
    else (joinPieces? (.unit low :: rest)).map (Char.ofNat high :: ·)
  | .unit n :: rest =>
    if 0xd800 ≤ n ∧ n < 0xe000 then none
    else (joinPieces? rest).map (Char.ofNat n :: ·)

/-- The text of a string after its opening quotation mark. -/
def string? (chars : List Char) : Option (Option String × List Char) := do
  let (pieces, rest) ← pieces? chars
  some ((joinPieces? pieces).map String.ofList, rest)

def keyword? (chars : List Char) : Option (Json × List Char) :=
  match chars with
  | 'n' :: 'u' :: 'l' :: 'l' :: rest => some (.null, rest)
  | 't' :: 'r' :: 'u' :: 'e' :: rest => some (.bool true, rest)
  | 'f' :: 'a' :: 'l' :: 's' :: 'e' :: rest => some (.bool false, rest)
  | _ => none

mutual

/-- A value that begins at once. The fuel of these readers bounds their nesting together with the
number of elements and fields; twice the number of characters is enough. -/
def value? : Nat → List Char → Option (Json × List Char)
  | 0, _ => none
  | fuel + 1, chars =>
    match chars with
    | '[' :: rest =>
      match skipBlanks rest with
      | ']' :: rest => some (.array [], rest)
      | rest => (items? fuel rest).map fun (items, rest) => (.array items, rest)
    | '{' :: rest =>
      match skipBlanks rest with
      | '}' :: rest => some (.object [], rest)
      | rest => (fields? fuel rest).map fun (fields, rest) => (.object fields, rest)
    | '"' :: rest => (string? rest).map fun (text, rest) => (.string text, rest)
    | c :: _ => if c = '-' ∨ c.isDigit then number? chars else keyword? chars
    | [] => none

/-- At least one element, and the end of the array. -/
def items? : Nat → List Char → Option (List Json × List Char)
  | 0, _ => none
  | fuel + 1, chars => do
    let (item, rest) ← value? fuel chars
    match skipBlanks rest with
    | ',' :: rest =>
      let (items, rest) ← items? fuel (skipBlanks rest)
      some (item :: items, rest)
    | ']' :: rest => some ([item], rest)
    | _ => none

/-- At least one field, and the end of the object. -/
def fields? : Nat → List Char → Option (List (Option String × Json) × List Char)
  | 0, _ => none
  | fuel + 1, chars =>
    match chars with
    | '"' :: rest => do
      let (key, rest) ← string? rest
      match skipBlanks rest with
      | ':' :: rest =>
        let (value, rest) ← value? fuel (skipBlanks rest)
        match skipBlanks rest with
        | ',' :: rest =>
          let (fields, rest) ← fields? fuel (skipBlanks rest)
          some ((key, value) :: fields, rest)
        | '}' :: rest => some ([(key, value)], rest)
        | _ => none
      | _ => none
    | _ => none

end

/-- The value of a text that holds nothing else. -/
def parse? (text : String) : Option Json :=
  let chars := skipBlanks text.toList
  match value? (2 * chars.length + 1) chars with
  | some (value, rest) => if (skipBlanks rest).isEmpty then some value else none
  | none => none

end Certified.Json
