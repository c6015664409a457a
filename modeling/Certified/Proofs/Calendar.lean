import Mathlib
import Certified.Calendar

/-!
The dates of the calendar name the days one after the other: every day has one date, with a month of the year
and a day of the month, and a later day has a later date.
-/

namespace Certified.Calendar

/-! ### Years -/

def yearLength (year : Int) : Nat :=
  if isLeapYear year then 366 else 365

theorem length_monthLengths (year : Int) : (monthLengths year).length = 12 := rfl

theorem monthLengths_le {year : Int} {length : Nat} (mem : length ∈ monthLengths year) : length ≤ 31 := by
  simp only [monthLengths, List.mem_cons, List.not_mem_nil, or_false] at mem
  split at mem <;> omega

theorem sum_monthLengths (year : Int) : (monthLengths year).sum = yearLength year := by
  simp only [monthLengths, yearLength, List.sum_cons, List.sum_nil]
  split <;> rfl

/-- The years follow one another: each has 365 days, and a leap year one more. -/
theorem daysBeforeYear_succ (year : Int) :
    daysBeforeYear (year + 1) = daysBeforeYear year + yearLength year := by
  unfold daysBeforeYear yearLength isLeapYear
  split <;> simp only [decide_eq_true_eq] at * <;> omega

theorem daysBeforeYear_mono {year later : Int} (le : year ≤ later) :
    daysBeforeYear year ≤ daysBeforeYear later := by
  unfold daysBeforeYear
  omega

/-! ### Months -/

/-- The number of days of a month; there is no month before the first or after the twelfth. -/
def monthLength (year : Int) (month : Nat) : Nat :=
  (monthLengths year)[month - 1]?.getD 0

theorem daysBeforeMonth_eq_sum (year : Int) (month : Nat) :
    daysBeforeMonth year month = ((monthLengths year).take (month - 1)).sum :=
  List.sum_eq_foldl.symm

theorem daysBeforeMonth_succ {month : Nat} (year : Int) (first : 1 ≤ month) (last : month ≤ 12) :
    daysBeforeMonth year (month + 1) = daysBeforeMonth year month + monthLength year month := by
  obtain ⟨i, rfl⟩ := Nat.exists_eq_add_of_le' first
  have inside : i < (monthLengths year).length := by
    rw [length_monthLengths]
    omega
  rw [daysBeforeMonth_eq_sum, daysBeforeMonth_eq_sum, monthLength, Nat.add_sub_cancel,
    Nat.add_sub_cancel, List.sum_take_succ _ _ inside, List.getElem?_eq_getElem inside, Option.getD_some]

theorem daysBeforeMonth_mono {month later : Nat} (year : Int) (le : month ≤ later) :
    daysBeforeMonth year month ≤ daysBeforeMonth year later := by
  rw [daysBeforeMonth_eq_sum, daysBeforeMonth_eq_sum]
  exact List.monotone_sum_take _ (by omega)

theorem daysBeforeMonth_thirteen (year : Int) : daysBeforeMonth year 13 = yearLength year := by
  rw [daysBeforeMonth_eq_sum, ← sum_monthLengths]
  rfl

/-- The days of the months are counted off until one of them holds the day. -/
theorem monthAndDay_spec (first : Nat) {lengths : List Nat} {count : Nat} (inside : count < lengths.sum) :
    ∃ i, i < lengths.length ∧ (lengths.take i).sum ≤ count ∧ count < (lengths.take (i + 1)).sum ∧
      monthAndDay first lengths count = (first + i, count - (lengths.take i).sum + 1) := by
  induction lengths generalizing first count with
  | nil => simp at inside
  | cons length rest ih =>
    rw [List.sum_cons] at inside
    by_cases here : count < length
    · refine ⟨0, by simp, by simp, by simpa using here, ?_⟩
      simp [monthAndDay, here]
    · have left : count - length < rest.sum := by omega
      obtain ⟨i, bound, lower, upper, found⟩ := ih (first + 1) left
      refine ⟨i + 1, by simpa using bound, ?_, ?_, ?_⟩
      · rw [List.take_succ_cons, List.sum_cons]
        omega
      · rw [List.take_succ_cons, List.sum_cons]
        omega
      · rw [monthAndDay, if_neg here, found, List.take_succ_cons, List.sum_cons]
        congr 1 <;> omega

/-! ### Dates -/

/-- There is such a month and such a day in it. -/
structure Date.Valid (date : Date) : Prop where
  first_le : 1 ≤ date.month
  le_last : date.month ≤ 12
  day_pos : 1 ≤ date.day
  day_le : date.day ≤ monthLength date.year date.month

instance (date : Date) : Decidable date.Valid :=
  decidable_of_iff (1 ≤ date.month ∧ date.month ≤ 12 ∧ 1 ≤ date.day ∧
      date.day ≤ monthLength date.year date.month)
    ⟨fun ⟨first, last, pos, le⟩ => ⟨first, last, pos, le⟩,
      fun ⟨first, last, pos, le⟩ => ⟨first, last, pos, le⟩⟩

namespace Date

/-- A date comes before another. -/
def Earlier (date other : Date) : Prop :=
  date.year < other.year ∨
    date.year = other.year ∧
      (date.month < other.month ∨ date.month = other.month ∧ date.day < other.day)

variable {date other : Date}

theorem Valid.day_le_31 (valid : date.Valid) : date.day ≤ 31 := by
  refine valid.day_le.trans ?_
  rw [monthLength, List.getD_getElem?]
  split
  · apply monthLengths_le
    exact List.getElem_mem _
  · exact Nat.zero_le 31

/-- A date names a day of its month, and so one of its year. -/
theorem Valid.toDay_lt_month (valid : date.Valid) :
    date.toDay < daysBeforeYear date.year + daysBeforeMonth date.year (date.month + 1) := by
  obtain ⟨first, last, pos, le⟩ := valid
  rw [toDay, daysBeforeMonth_succ date.year first last]
  omega

theorem Valid.toDay_lt_year (valid : date.Valid) : date.toDay < daysBeforeYear (date.year + 1) := by
  have month := valid.toDay_lt_month
  have rest := daysBeforeMonth_mono date.year (Nat.add_le_add_right valid.le_last 1)
  rw [daysBeforeMonth_thirteen] at rest
  rw [daysBeforeYear_succ]
  omega

theorem Valid.month_le_toDay (valid : date.Valid) :
    daysBeforeYear date.year + daysBeforeMonth date.year date.month ≤ date.toDay := by
  have := valid.day_pos
  rw [toDay]
  omega

theorem Earlier.toDay_lt (earlier : date.Earlier other) (valid : date.Valid) (validOther : other.Valid) :
    date.toDay < other.toDay := by
  have before := valid.toDay_lt_month
  have after := validOther.month_le_toDay
  rcases earlier with year | ⟨year, month | ⟨month, day⟩⟩
  · calc date.toDay
      _ < daysBeforeYear (date.year + 1) := valid.toDay_lt_year
      _ ≤ daysBeforeYear other.year := daysBeforeYear_mono year
      _ ≤ other.toDay := by omega
  · have months := daysBeforeMonth_mono other.year (Nat.add_one_le_iff.mpr month)
    rw [year] at before
    omega
  · have pos := valid.day_pos
    rw [toDay, toDay, year, month]
    omega

theorem earlier_or_eq_or_earlier (date other : Date) :
    date.Earlier other ∨ date = other ∨ other.Earlier date := by
  obtain ⟨year, month, day⟩ := date
  obtain ⟨year', month', day'⟩ := other
  simp only [Earlier, Date.mk.injEq]
  omega

/-- Year, month and day decide one after the other, and then what comes after a date. -/
theorem earlier_or_eq_and_iff {later : Prop} :
    date.Earlier other ∨ date = other ∧ later ↔
      date.year < other.year ∨ date.year = other.year ∧
        (date.month < other.month ∨ date.month = other.month ∧
          (date.day < other.day ∨ date.day = other.day ∧ later)) := by
  obtain ⟨year, month, day⟩ := date
  obtain ⟨year', month', day'⟩ := other
  simp only [Earlier, Date.mk.injEq]
  tauto

/-- The dates are in the order of the days that they name. -/
theorem Valid.earlier_iff (valid : date.Valid) (validOther : other.Valid) :
    date.Earlier other ↔ date.toDay < other.toDay := by
  refine ⟨fun earlier => earlier.toDay_lt valid validOther, ?_⟩
  intro lt
  rcases earlier_or_eq_or_earlier date other with earlier | same | later
  · exact earlier
  · rw [same] at lt
    exact absurd lt (lt_irrefl _)
  · exact absurd (later.toDay_lt validOther valid) (lt_asymm lt)

/-- No two dates name one day. -/
theorem Valid.toDay_inj (valid : date.Valid) (validOther : other.Valid) :
    date.toDay = other.toDay ↔ date = other := by
  refine ⟨?_, congrArg toDay⟩
  intro same
  rcases earlier_or_eq_or_earlier date other with earlier | equal | later
  · exact absurd (earlier.toDay_lt valid validOther) (same ▸ lt_irrefl _)
  · exact equal
  · exact absurd (later.toDay_lt validOther valid) (same ▸ lt_irrefl _)

/-- The months of the year of a day hold the day. -/
theorem exists_month_ofDay (day : Int) :
    ∃ i < 12, ofDay day =
        ⟨yearOfDay day, 1 + i,
          (day - daysBeforeYear (yearOfDay day)).toNat - daysBeforeMonth (yearOfDay day) (1 + i) + 1⟩ ∧
      daysBeforeMonth (yearOfDay day) (1 + i) ≤ (day - daysBeforeYear (yearOfDay day)).toNat ∧
      (day - daysBeforeYear (yearOfDay day)).toNat < daysBeforeMonth (yearOfDay day) (1 + i + 1) := by
  obtain ⟨lower, upper⟩ := yearOfDay_bounds day
  rw [daysBeforeYear_succ] at upper
  have inside : (day - daysBeforeYear (yearOfDay day)).toNat < (monthLengths (yearOfDay day)).sum := by
    rw [sum_monthLengths]
    omega
  obtain ⟨i, bound, lower, upper, found⟩ := monthAndDay_spec 1 inside
  refine ⟨i, bound, ?_, ?_, ?_⟩
  · rw [ofDay, found, daysBeforeMonth_eq_sum, Nat.add_sub_cancel_left]
  · rw [daysBeforeMonth_eq_sum, Nat.add_sub_cancel_left]
    exact lower
  · rw [daysBeforeMonth_eq_sum, Nat.add_sub_cancel, Nat.add_comm 1 i]
    exact upper

theorem valid_ofDay (day : Int) : (ofDay day).Valid := by
  obtain ⟨i, bound, date, lower, upper⟩ := exists_month_ofDay day
  rw [daysBeforeMonth_succ _ (Nat.le_add_right 1 i) (by omega)] at upper
  rw [date]
  constructor <;> dsimp only <;> omega

/-- The date of a day names the day. -/
theorem toDay_ofDay (day : Int) : (ofDay day).toDay = day := by
  obtain ⟨i, bound, date, lower, upper⟩ := exists_month_ofDay day
  have inYear := (yearOfDay_bounds day).1
  rw [date, toDay]
  dsimp only
  omega

end Date
end Certified.Calendar
