import Certified.Calendar
import Certified.Radix
import Certified.Toml.Basic

/-!
TOML values that are single words: numbers, dates and times, and the truth values. A word is read as
a whole.
-/

namespace Certified.Toml

/-- Digits in groups with single underscores between them. -/
def groupedDigits? (base : Nat) : List Char → Option (List Nat)
  | [] => none
  | [c] => (Radix.digitOf? base c).map fun d => [d]
  | c :: '_' :: rest => do
    let d ← Radix.digitOf? base c
    (groupedDigits? base rest).map (d :: ·)
  | c :: rest => do
    let d ← Radix.digitOf? base c
    (groupedDigits? base rest).map (d :: ·)

/-- Decimal digits in groups, without a zero in front. -/
def wholeDigits? (chars : List Char) : Option (List Nat) := do
  let digits ← groupedDigits? 10 chars
  if digits.head? = some 0 ∧ chars.length ≠ 1 then none else some digits

/-- The sign in front and what follows it: true for a minus. -/
def splitSign : List Char → Bool × List Char
  | '-' :: rest => (true, rest)
  | '+' :: rest => (false, rest)
  | chars => (false, chars)

/-- A 64-bit signed integer: decimal with an optional sign, or in base 16, 8 or 2 without. -/
def integer? (word : List Char) : Option Value := do
  let n : Int ← match word with
    | '0' :: 'x' :: digits => (groupedDigits? 16 digits).map fun ds => (Radix.value 16 ds : Int)
    | '0' :: 'o' :: digits => (groupedDigits? 8 digits).map fun ds => (Radix.value 8 ds : Int)
    | '0' :: 'b' :: digits => (groupedDigits? 2 digits).map fun ds => (Radix.value 2 ds : Int)
    | _ =>
      let (negative, digits) := splitSign word
      (wholeDigits? digits).map fun ds => Radix.signed negative (Radix.value 10 ds)
  if Int64.minValue.toInt ≤ n ∧ n ≤ Int64.maxValue.toInt then some (.integer n) else none

/-- The digits `mantissa` times a power of ten round to infinity in 64-bit floating point. -/
def overflows (mantissa : List Nat) (exponent : Int) : Bool :=
  let significant := mantissa.dropWhile (· = 0)
  let magnitude := significant.length + exponent
  let n := Radix.value 10 significant
  let bound := 1 <<< 1024 - 1 <<< 970
  if significant.isEmpty ∨ magnitude < 300 then false
  else if 400 < magnitude then true
  else if 0 ≤ exponent then bound ≤ n * Nat.pow 10 exponent.toNat
  else bound * Nat.pow 10 (-exponent).toNat ≤ n

def isExponentMark (c : Char) : Bool :=
  c = 'e' ∨ c = 'E'

/-- A float: a whole part with a fraction, an exponent or both, or one of the words for infinity and
for no number. A positive number too large for 64 bits is refused. -/
def float? (word : List Char) : Option Value := do
  let (negative, unsigned) := splitSign word
  if unsigned = ['i', 'n', 'f'] ∨ unsigned = ['n', 'a', 'n'] then return .float
  let number := unsigned.takeWhile fun c => !isExponentMark c
  let exponent ← match unsigned.dropWhile fun c => !isExponentMark c with
    | [] => some none
    | _ :: power => do
      let (minus, digits) := splitSign power
      let n ← groupedDigits? 10 digits
      some (some (Radix.signed minus (Radix.value 10 n)))
  let whole ← wholeDigits? (number.takeWhile (· ≠ '.'))
  let fraction ← match number.dropWhile (· ≠ '.') with
    | [] => some none
    | _ :: digits => (groupedDigits? 10 digits).map some
  if exponent.isNone && fraction.isNone then none
  let places := fraction.getD []
  if !negative && overflows (whole ++ places) (exponent.getD 0 - places.length) then none
  return .float

/-- A number of two decimal digits up to `most`. -/
def twoDigits? (most : Nat) : List Char → Option (Nat × List Char)
  | a :: b :: rest => do
    let n := Radix.value 10 [← Radix.digitOf? 10 a, ← Radix.digitOf? 10 b]
    if n ≤ most then some (n, rest) else none
  | _ => none

/-- What follows an expected character. -/
def after? (c : Char) : List Char → Option (List Char)
  | first :: rest => if first = c then some rest else none
  | [] => none

/-- What follows a date. -/
def afterDate? (chars : List Char) : Option (List Char) := do
  let (century, rest) ← twoDigits? 99 chars
  let (yearInCentury, rest) ← twoDigits? 99 rest
  let (month, rest) ← twoDigits? 12 (← after? '-' rest)
  let (day, rest) ← twoDigits? 31 (← after? '-' rest)
  let length ← (Calendar.monthLengths (100 * century + yearInCentury))[month - 1]?
  if 1 ≤ month ∧ 1 ≤ day ∧ day ≤ length then some rest else none

/-- What follows a time of day. -/
def afterTime? (chars : List Char) : Option (List Char) := do
  let (_, rest) ← twoDigits? 23 chars
  let (_, rest) ← twoDigits? 59 (← after? ':' rest)
  let (_, rest) ← twoDigits? 60 (← after? ':' rest)
  match rest with
  | '.' :: digit :: rest => if digit.isDigit then some (rest.dropWhile Char.isDigit) else none
  | _ => some rest

/-- The rest is a time offset or empty. -/
def isOffset (chars : List Char) : Bool :=
  match chars with
  | [] | ['Z'] | ['z'] => true
  | sign :: rest =>
    (sign = '+' ∨ sign = '-') ∧
      (do
        let (_, rest) ← twoDigits? 23 rest
        let (_, rest) ← twoDigits? 59 (← after? ':' rest)
        some rest) = some []

/-- A date, a time of day, or both with a mark between them and an optional offset. -/
def dateTime? (word : List Char) : Option Value :=
  let isDateTime :=
    match afterDate? word with
    | some [] => true
    | some (mark :: rest) =>
      (mark = 'T' ∨ mark = 't' ∨ mark = ' ') ∧ ((afterTime? rest).map isOffset).getD false
    | none => afterTime? word = some []
  if isDateTime then some .dateTime else none

/-- The value of a word. -/
def word? (word : List Char) : Option Value :=
  if word = ['t', 'r', 'u', 'e'] then some (.boolean true)
  else if word = ['f', 'a', 'l', 's', 'e'] then some (.boolean false)
  else (dateTime? word).or ((float? word).or (integer? word))

end Certified.Toml
