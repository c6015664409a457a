import Certified.Radix

/-!
Decimal text: numbers with leading zeros to a fixed number of places, and unsigned numbers read
from text.
-/

namespace Certified.Text.Decimal

/-- At least `width` digits: leading zeros fill the places that the number leaves free. -/
def padded (width n : Nat) : String :=
  let digits := Nat.toDigits 10 n
  String.ofList (List.replicate (width - digits.length) '0' ++ digits)

/-- The value of a non-empty text of decimal digits. -/
def ofDigits? (chars : List Char) : Option Nat :=
  if chars.isEmpty then none else (chars.mapM (Radix.digitOf? 10)).map (Radix.value 10)

/-- An unsigned number of 64 bits: digits, after an optional plus sign. -/
def readUInt64? (text : String) : Option UInt64 := do
  let chars := text.toList
  let n ← ofDigits? (if chars.head? = some '+' then chars.tail else chars)
  if n < UInt64.size then some (UInt64.ofNat n) else none

end Certified.Text.Decimal
