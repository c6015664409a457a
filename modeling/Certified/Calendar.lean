/-!
The proleptic Gregorian calendar. Days are counted from 1 January of the year 0, and years go on
before it as negative numbers.
-/

namespace Certified.Calendar

/-- The number of days before 1 January of a year. -/
def daysBeforeYear (year : Int) : Int :=
  365 * year + (year - 1) / 4 - (year - 1) / 100 + (year - 1) / 400 + 1

/-- The day on which Unix time begins, 1 January 1970. -/
def epochDay : Int := 719528

/-- The year of a day: the mean length of a year gives one that is off by one at most. -/
def yearOfDay (day : Int) : Int :=
  let near := 400 * day / 146097
  if day < daysBeforeYear near then near - 1
  else if daysBeforeYear (near + 1) ≤ day then near + 1
  else near

theorem yearOfDay_bounds (day : Int) :
    daysBeforeYear (yearOfDay day) ≤ day ∧ day < daysBeforeYear (yearOfDay day + 1) := by
  have lower : daysBeforeYear (400 * day / 146097 - 1) ≤ day := by
    simp only [daysBeforeYear]
    omega
  have upper : day < daysBeforeYear (400 * day / 146097 + 1 + 1) := by
    simp only [daysBeforeYear]
    omega
  unfold yearOfDay
  by_cases before : day < daysBeforeYear (400 * day / 146097)
  · simp only [before, ↓reduceIte, Int.sub_add_cancel]
    exact ⟨lower, trivial⟩
  by_cases after : daysBeforeYear (400 * day / 146097 + 1) ≤ day
  · simp only [before, after, ↓reduceIte]
    exact ⟨trivial, upper⟩
  · simp only [before, after, ↓reduceIte]
    omega

def isLeapYear (year : Int) : Bool :=
  year % 4 = 0 ∧ (year % 100 ≠ 0 ∨ year % 400 = 0)

def monthLengths (year : Int) : List Nat :=
  [31, if isLeapYear year then 29 else 28, 31, 30, 31, 30, 31, 31, 30, 31, 30, 31]

structure Date where
  year : Int
  month : Nat
  day : Nat
deriving DecidableEq, Repr

/-- The month and the day of the month that is `count` days after the start of `month`. -/
def monthAndDay (month : Nat) : List Nat → (count : Nat) → Nat × Nat
  | length :: rest, count =>
    if count < length then (month, count + 1) else monthAndDay (month + 1) rest (count - length)
  | [], count => (month, count + 1)

def Date.ofDay (day : Int) : Date :=
  let year := yearOfDay day
  let (month, dayOfMonth) := monthAndDay 1 (monthLengths year) (day - daysBeforeYear year).toNat
  ⟨year, month, dayOfMonth⟩

/-- The number of days of a year before a month. -/
def daysBeforeMonth (year : Int) (month : Nat) : Nat :=
  ((monthLengths year).take (month - 1)).foldl (· + ·) 0

/-- The day that a date names. -/
def Date.toDay (date : Date) : Int :=
  daysBeforeYear date.year + daysBeforeMonth date.year date.month + (date.day - 1)

end Certified.Calendar
