import Certified.Calendar
import Certified.Text.Decimal

/-!
Points in time, in seconds and nanoseconds since 1970, and their text.
-/

namespace Certified

structure Timestamp where
  /-- Seconds since the start of 1970. -/
  seconds : Int64
  /-- Nanoseconds after that second. -/
  nanos : UInt32
deriving DecidableEq

namespace Timestamp

def ofUnixNanos (n : UInt64) : Timestamp :=
  ⟨(n / 1000000000).toInt64, (n % 1000000000).toUInt32⟩

/-- Whole milliseconds since the start of 1970. -/
def millis (t : Timestamp) : Int64 :=
  t.seconds * 1000 + Int64.ofNat (t.nanos.toNat / 1000000)

/-- Earlier seconds come first, then fewer nanoseconds. -/
instance : LE Timestamp where
  le s t := s.seconds < t.seconds ∨ s.seconds = t.seconds ∧ s.nanos ≤ t.nanos

instance (s t : Timestamp) : Decidable (s ≤ t) :=
  inferInstanceAs (Decidable (s.seconds < t.seconds ∨ s.seconds = t.seconds ∧ s.nanos ≤ t.nanos))

/-- Years of four digits stand alone, others have a sign. -/
def yearText (year : Int) : String :=
  if 0 ≤ year ∧ year ≤ 9999 then Text.Decimal.padded 4 year.toNat
  else (if year < 0 then "-" else "+") ++ Text.Decimal.padded 4 year.natAbs

/-- Seconds and nanoseconds without a calendar. -/
def plainText (t : Timestamp) : String :=
  toString t.seconds.toInt ++ "." ++ Text.Decimal.padded 9 t.nanos.toNat

/-- The first and the last year that have a calendar text. -/
def firstYear : Int := -262143
def lastYear : Int := 262142

/-- Date and time of day in UTC, for the years of the calendar. A second billion of nanoseconds is a
leap second, which only the last second of a minute can have. -/
def calendarText? (t : Timestamp) : Option String :=
  let date := Calendar.Date.ofDay (t.seconds.toInt / 86400 + Calendar.epochDay)
  let second := (t.seconds.toInt % 86400).toNat
  let nanos := t.nanos.toNat
  let leap := 1000000000 ≤ nanos
  let pair (n : Nat) := Text.Decimal.padded 2 n
  if date.year < firstYear ∨ lastYear < date.year then none
  else if leap ∧ (second % 60 ≠ 59 ∨ 2000000000 ≤ nanos) then none
  else some <|
    yearText date.year ++ "-" ++ pair date.month ++ "-" ++ pair date.day ++ " " ++
    pair (second / 3600) ++ ":" ++ pair (second / 60 % 60) ++ ":" ++
    pair (second % 60 + nanos / 1000000000) ++ "." ++
    Text.Decimal.padded 9 (nanos % 1000000000) ++ " UTC"

def text (t : Timestamp) : String :=
  t.calendarText?.getD t.plainText

def shown (t : Timestamp) : String :=
  "Timestamp(" ++ t.plainText ++ ")"

end Timestamp
end Certified
