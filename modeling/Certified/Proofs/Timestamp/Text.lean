import Mathlib
import Certified.Proofs.Calendar
import Certified.Proofs.Decimal
import Certified.Proofs.Timestamp.Splitting
import Certified.Report.Leaves

/-!
The text of a time names its date and its time of day, to the nanosecond. All texts of times of 64 bits have one
length, and they sort as the times do.
-/

namespace Certified

open Text.Decimal (padded)

/-- A date and a time of day, in UTC. -/
structure Moment where
  date : Calendar.Date
  hour : Nat
  minute : Nat
  second : Nat
  nanos : Nat
deriving DecidableEq

namespace Moment

/-- There is such a date and such a time of day. -/
structure Valid (m : Moment) : Prop where
  date : m.date.Valid
  hour : m.hour < 24
  minute : m.minute < 60
  second : m.second < 60
  nanos : m.nanos < 1000000000

instance (m : Moment) : Decidable m.Valid :=
  decidable_of_iff (m.date.Valid ∧ m.hour < 24 ∧ m.minute < 60 ∧ m.second < 60 ∧ m.nanos < 1000000000)
    ⟨fun ⟨date, hour, minute, second, nanos⟩ => ⟨date, hour, minute, second, nanos⟩,
      fun ⟨date, hour, minute, second, nanos⟩ => ⟨date, hour, minute, second, nanos⟩⟩

/-- The nanoseconds since the start of 1970; days have 86400 seconds. -/
def unixNanos (m : Moment) : Int :=
  ((m.date.toDay - Calendar.epochDay) * 86400 + (m.hour * 3600 + m.minute * 60 + m.second)) * 1000000000 +
    m.nanos

/-! ### Reading -/

/-- A number of so many decimal digits, and what follows it. -/
def number? (width : Nat) (chars : List Char) : Option (Nat × List Char) :=
  if width ≤ chars.length then
    (Text.Decimal.ofDigits? (chars.take width)).map fun n => (n, chars.drop width)
  else none

/-- The moment that a text names: year, month and day, then hour, minute, second and nanoseconds, with fixed
numbers of digits and marks between them. -/
def ofText? (text : String) : Option Moment := do
  let (year, rest) ← number? 4 text.toList
  let (month, rest) ← number? 2 (← ['-'].isPrefixOf? rest)
  let (day, rest) ← number? 2 (← ['-'].isPrefixOf? rest)
  let (hour, rest) ← number? 2 (← [' '].isPrefixOf? rest)
  let (minute, rest) ← number? 2 (← [':'].isPrefixOf? rest)
  let (second, rest) ← number? 2 (← [':'].isPrefixOf? rest)
  let (nanos, rest) ← number? 9 (← ['.'].isPrefixOf? rest)
  let m : Moment := ⟨⟨year, month, day⟩, hour, minute, second, nanos⟩
  if rest = [' ', 'U', 'T', 'C'] ∧ m.Valid then some m else none

/-- A number that is written with its zeros is read in front of anything. -/
theorem number?_padded_bind {α : Type} {width n : Nat} (occupied : 0 < width) (fits : n < 10 ^ width)
    (rest : List Char) (next : Nat × List Char → Option α) :
    (number? width ((padded width n).toList ++ rest) >>= next) = next (n, rest) := by
  have length := Text.Decimal.length_padded occupied fits
  rw [number?, if_pos (by rw [List.length_append]; omega), List.take_left' length, List.drop_left' length,
    Text.Decimal.ofDigits?_padded occupied fits, Option.map_some]
  rfl

theorem mark_bind {α : Type} (c : Char) (rest : List Char) (next : List Char → Option α) :
    ([c].isPrefixOf? (c :: rest) >>= next) = next rest := by
  simp [List.isPrefixOf?]

/-! ### Writing -/

/-- A moment of a year with four digits. -/
structure Writable (m : Moment) : Prop extends Valid m where
  year_nonneg : 0 ≤ m.date.year
  year_le : m.date.year ≤ 9999

def chars (m : Moment) : List Char :=
  (padded 4 m.date.year.toNat).toList ++ '-' :: ((padded 2 m.date.month).toList ++
    '-' :: ((padded 2 m.date.day).toList ++ ' ' :: ((padded 2 m.hour).toList ++
    ':' :: ((padded 2 m.minute).toList ++ ':' :: ((padded 2 m.second).toList ++
    '.' :: ((padded 9 m.nanos).toList ++ [' ', 'U', 'T', 'C']))))))

variable {m other : Moment}

theorem Writable.year_lt (writable : m.Writable) : m.date.year.toNat < 10 ^ 4 := by
  have := writable.year_le
  omega

theorem Writable.month_lt (writable : m.Writable) : m.date.month < 10 ^ 2 := by
  have := writable.date.le_last
  omega

theorem Writable.day_lt (writable : m.Writable) : m.date.day < 10 ^ 2 := by
  have := writable.date.day_le_31
  omega

theorem Writable.hour_lt (writable : m.Writable) : m.hour < 10 ^ 2 := by
  have := writable.hour
  omega

theorem Writable.minute_lt (writable : m.Writable) : m.minute < 10 ^ 2 := by
  have := writable.minute
  omega

theorem Writable.second_lt (writable : m.Writable) : m.second < 10 ^ 2 := by
  have := writable.second
  omega

theorem Writable.nanos_lt (writable : m.Writable) : m.nanos < 10 ^ 9 :=
  writable.nanos

theorem Writable.length_chars (writable : m.Writable) : m.chars.length = 33 := by
  simp only [chars, List.length_append, List.length_cons, List.length_nil,
    Text.Decimal.length_padded (by omega) writable.year_lt,
    Text.Decimal.length_padded (by omega) writable.month_lt,
    Text.Decimal.length_padded (by omega) writable.day_lt,
    Text.Decimal.length_padded (by omega) writable.hour_lt,
    Text.Decimal.length_padded (by omega) writable.minute_lt,
    Text.Decimal.length_padded (by omega) writable.second_lt,
    Text.Decimal.length_padded (by omega) writable.nanos_lt]

/-- What is written reads back. -/
theorem Writable.ofText?_chars (writable : m.Writable) : ofText? (String.ofList m.chars) = some m := by
  have year : (m.date.year.toNat : Int) = m.date.year := Int.toNat_of_nonneg writable.year_nonneg
  simp only [ofText?, chars, String.toList_ofList, ↓mark_bind, ↓number?_padded_bind (by omega) writable.year_lt,
    ↓number?_padded_bind (by omega) writable.month_lt, ↓number?_padded_bind (by omega) writable.day_lt,
    ↓number?_padded_bind (by omega) writable.hour_lt, ↓number?_padded_bind (by omega) writable.minute_lt,
    ↓number?_padded_bind (by omega) writable.second_lt, ↓number?_padded_bind (by omega) writable.nanos_lt, year]
  exact if_pos ⟨trivial, writable.toValid⟩

/-! ### Order -/

theorem cons_lt_cons_iff (c : Char) (rest rest' : List Char) : c :: rest < c :: rest' ↔ rest < rest' := by
  simp

/-- Dates decide first, and then the times of day. -/
theorem unixNanos_lt_iff (left : m.Valid) (right : other.Valid) :
    m.unixNanos < other.unixNanos ↔
      m.date.Earlier other.date ∨ m.date = other.date ∧
        (m.hour < other.hour ∨ m.hour = other.hour ∧
          (m.minute < other.minute ∨ m.minute = other.minute ∧
            (m.second < other.second ∨ m.second = other.second ∧ m.nanos < other.nanos))) := by
  have dates := left.date.earlier_iff right.date
  have days := left.date.toDay_inj right.date
  obtain ⟨_, _, _, _, _⟩ := left
  obtain ⟨_, _, _, _, _⟩ := right
  rw [dates, ← days, unixNanos, unixNanos]
  omega

/-- The texts of moments are in the order of the moments. -/
theorem Writable.chars_lt_iff (left : m.Writable) (right : other.Writable) :
    m.chars < other.chars ↔ m.unixNanos < other.unixNanos := by
  have least := left.year_nonneg
  have least' := right.year_nonneg
  rw [chars, chars, Text.Decimal.padded_append_lt_iff (by omega) left.year_lt right.year_lt,
    cons_lt_cons_iff, Text.Decimal.padded_append_lt_iff (by omega) left.month_lt right.month_lt,
    cons_lt_cons_iff, Text.Decimal.padded_append_lt_iff (by omega) left.day_lt right.day_lt,
    cons_lt_cons_iff, Text.Decimal.padded_append_lt_iff (by omega) left.hour_lt right.hour_lt,
    cons_lt_cons_iff, Text.Decimal.padded_append_lt_iff (by omega) left.minute_lt right.minute_lt,
    cons_lt_cons_iff, Text.Decimal.padded_append_lt_iff (by omega) left.second_lt right.second_lt,
    cons_lt_cons_iff, Text.Decimal.padded_append_lt_iff (by omega) left.nanos_lt right.nanos_lt,
    unixNanos_lt_iff left.toValid right.toValid, Calendar.Date.earlier_or_eq_and_iff]
  simp only [lt_irrefl, and_false, or_false]
  omega

end Moment

/-! ### Times of 64 bits -/

namespace Timestamp

/-- The date and the time of day of a timestamp. -/
def moment (t : Timestamp) : Moment where
  date := .ofDay (t.seconds.toInt / 86400 + Calendar.epochDay)
  hour := (t.seconds.toInt % 86400).toNat / 3600
  minute := (t.seconds.toInt % 86400).toNat / 60 % 60
  second := (t.seconds.toInt % 86400).toNat % 60
  nanos := t.nanos.toNat

theorem Split.valid_moment {t : Timestamp} (split : t.Split) : t.moment.Valid := by
  have nanos : t.nanos.toNat < 1000000000 := split
  constructor
  · exact Calendar.Date.valid_ofDay _
  all_goals
    dsimp only [moment]
    omega

theorem unixNanos_moment (t : Timestamp) : t.moment.unixNanos = t.unixNanos := by
  rw [Moment.unixNanos, moment, Calendar.Date.toDay_ofDay, unixNanos]
  dsimp only
  omega

/-- The times of 64 bits end in the year 2554. -/
theorem year_bounds (n : UInt64) :
    1970 ≤ (ofUnixNanos n).moment.date.year ∧ (ofUnixNanos n).moment.date.year ≤ 2554 := by
  have bound : n.toNat < 2 ^ 64 := n.toNat_lt
  obtain ⟨lower, upper⟩ :=
    Calendar.yearOfDay_bounds ((ofUnixNanos n).seconds.toInt / 86400 + Calendar.epochDay)
  change 1970 ≤ Calendar.yearOfDay _ ∧ Calendar.yearOfDay _ ≤ 2554
  rw [toInt_seconds] at lower upper ⊢
  generalize Calendar.yearOfDay _ = year at lower upper ⊢
  simp only [Calendar.daysBeforeYear, Calendar.epochDay] at lower upper
  omega

theorem writable_moment (n : UInt64) : (ofUnixNanos n).moment.Writable where
  toValid := (split_ofUnixNanos n).valid_moment
  year_nonneg := by
    have := (year_bounds n).1
    omega
  year_le := by
    have := (year_bounds n).2
    omega

/-- A moment of a year with four digits is written in the calendar. -/
theorem Split.calendarText?_eq {t : Timestamp} (split : t.Split) (writable : t.moment.Writable) :
    t.calendarText? = some (String.ofList t.moment.chars) := by
  have small : t.nanos.toNat < 1000000000 := split
  have least := writable.year_nonneg
  have most := writable.year_le
  simp only [moment] at least most
  simp only [calendarText?, Moment.chars, moment]
  generalize Calendar.Date.ofDay _ = date at least most ⊢
  have inCalendar : ¬ (date.year < firstYear ∨ lastYear < date.year) := by
    unfold firstYear lastYear
    omega
  have plain : ¬ (1000000000 ≤ t.nanos.toNat ∧
      ((t.seconds.toInt % 86400).toNat % 60 ≠ 59 ∨ 2000000000 ≤ t.nanos.toNat)) := by omega
  rw [if_neg inCalendar, if_neg plain, yearText, if_pos ⟨least, most⟩, Nat.div_eq_of_lt small,
    Nat.mod_eq_of_lt small, Nat.add_zero]
  apply congrArg some
  apply String.toList_inj.mp
  simp

theorem calendarText?_ofUnixNanos (n : UInt64) :
    (ofUnixNanos n).calendarText? = some (String.ofList (ofUnixNanos n).moment.chars) :=
  (split_ofUnixNanos n).calendarText?_eq (writable_moment n)

theorem timeText_eq (n : UInt64) : timeText n = String.ofList (ofUnixNanos n).moment.chars := by
  rw [timeText, text, calendarText?_ofUnixNanos, Option.getD_some]

/-- The time that a report shows is written in the calendar, never as a bare number of seconds. Its text reads
back as a date of the calendar and a time of day that make up the same nanoseconds. All these texts have one
length, and they sort as the times do. -/
theorem timeText_faithful (a b : UInt64) :
    (timeText a).length = (timeText b).length ∧
    (ofUnixNanos a).calendarText? = some (timeText a) ∧
    (∃ m, Moment.ofText? (timeText a) = some m ∧ m.Valid ∧ m.unixNanos = a.toNat) ∧
    (a < b ↔ timeText a < timeText b) := by
  have left := writable_moment a
  have right := writable_moment b
  simp only [timeText_eq]
  refine ⟨?_, calendarText?_ofUnixNanos a, ⟨_, left.ofText?_chars, left.toValid, ?_⟩, ?_⟩
  · rw [String.length_ofList, String.length_ofList, left.length_chars, right.length_chars]
  · rw [unixNanos_moment, unixNanos_ofUnixNanos]
  · rw [String.lt_iff_toList_lt, String.toList_ofList, String.toList_ofList, left.chars_lt_iff right,
      unixNanos_moment, unixNanos_moment, unixNanos_ofUnixNanos, unixNanos_ofUnixNanos,
      UInt64.lt_iff_toNat_lt, Int.ofNat_lt]

/-- The leap day of a century that has one. -/
example : timeText 951827696789012345 = "2000-02-29 12:34:56.789012345 UTC" := by
  decide +kernel

end Timestamp
end Certified
