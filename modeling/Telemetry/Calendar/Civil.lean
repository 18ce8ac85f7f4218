/-!
# Civil dates

The Gregorian calendar, extended to all years, over day numbers counted from the
first of January 1970. Years and months are found by counting the days in front
of them; `yearStart_yearOfDay` says that the year found for a day is the one
that contains it.
-/

namespace Telemetry.Calendar

/-- Whether a year has 366 days. -/
def isLeap (year : Int) : Bool := year % 4 == 0 && (year % 100 != 0 || year % 400 == 0)

/-- The number of the first day of a year. -/
def yearStart (year : Int) : Int :=
  365 * (year - 1) + (year - 1) / 4 - (year - 1) / 100 + (year - 1) / 400 - 719162

/-- The year that contains a day. -/
def yearOfDay (day : Int) : Int :=
  let near := 400 * (day + 719162) / 146097 + 1
  if day < yearStart near then near - 1
  else if yearStart (near + 1) ≤ day then near + 1
  else near

/-- A year begins within two days of where the mean length of a year puts it. -/
theorem yearStart_bounds (year : Int) :
    146097 * (year - 1) - 287664800 - 699 ≤ 400 * yearStart year ∧
      400 * yearStart year ≤ 146097 * (year - 1) - 287664800 + 396 := by
  simp only [yearStart]
  omega

/-- The year found for a day begins no later than that day and ends after it. -/
theorem yearStart_yearOfDay (day : Int) :
    yearStart (yearOfDay day) ≤ day ∧ day < yearStart (yearOfDay day + 1) := by
  obtain ⟨near, hnear⟩ : ∃ near, near = 400 * (day + 719162) / 146097 + 1 := ⟨_, rfl⟩
  have before := yearStart_bounds (near - 1)
  have after := yearStart_bounds (near + 1 + 1)
  simp only [yearOfDay, ← hnear]
  split
  case isTrue => rw [Int.sub_add_cancel]; omega
  case isFalse => split <;> omega

/-- The days of a year in front of each of its months. -/
def monthStarts (leap : Bool) : List Nat :=
  if leap then [0, 31, 60, 91, 121, 152, 182, 213, 244, 274, 305, 335]
  else [0, 31, 59, 90, 120, 151, 181, 212, 243, 273, 304, 334]

/-- The days of a year in front of a month, which is counted from one. -/
def monthStart (leap : Bool) (month : Nat) : Nat := (monthStarts leap).getD (month - 1) 0

/-- The number of days in a month. -/
def monthLength (leap : Bool) (month : Nat) : Nat :=
  if month = 2 then (if leap then 29 else 28)
  else if month = 4 ∨ month = 6 ∨ month = 9 ∨ month = 11 then 30
  else 31

/-- A day of the calendar; month and day are counted from one. -/
structure Date where
  year : Int
  month : Nat
  day : Nat
  deriving DecidableEq

/-- Whether the calendar has this date. -/
def Date.isValid (d : Date) : Bool :=
  1 ≤ d.month && d.month ≤ 12 && 1 ≤ d.day && d.day ≤ monthLength (isLeap d.year) d.month

/-- The number of a day. -/
def Date.toDay (d : Date) : Int :=
  yearStart d.year + monthStart (isLeap d.year) d.month + d.day - 1

/-- The days of its year in front of a day. -/
def dayOfYear (day : Int) : Nat := (day - yearStart (yearOfDay day)).toNat

/-- The date of a day number. -/
def Date.ofDay (day : Int) : Date :=
  let year := yearOfDay day
  let leap := isLeap year
  let rest := dayOfYear day
  let month := ((monthStarts leap).takeWhile (· ≤ rest)).length
  ⟨year, month, rest - monthStart leap month + 1⟩

/-- Days since Monday. -/
def weekday (day : Int) : Nat := ((day + 3) % 7).toNat

/-- The year and the number of an ISO week. -/
structure IsoWeek where
  year : Int
  week : Nat
  deriving DecidableEq

/-- The ISO week of a day: weeks start on Monday and belong to the year of their
Thursday. -/
def IsoWeek.ofDay (day : Int) : IsoWeek :=
  let thursday := day - weekday day + 3
  ⟨yearOfDay thursday, dayOfYear thursday / 7 + 1⟩

/-- The date a number of months away, on the last day of the month if it is too
short. -/
def Date.addMonths (d : Date) (months : Int) : Date :=
  let index := d.year * 12 + (d.month - 1 : Int) + months
  let year := index / 12
  let month := (index % 12).toNat + 1
  ⟨year, month, min d.day (monthLength (isLeap year) month)⟩

example : (Date.mk 1970 1 1).toDay = 0 := by decide

example : Date.ofDay 19782 = ⟨2024, 2, 29⟩ := by decide +kernel

example : (Date.mk 2024 1 31).addMonths (-11) = ⟨2023, 2, 28⟩ := by decide +kernel

example : IsoWeek.ofDay (Date.mk 2024 12 30).toDay = ⟨2025, 1⟩ := by decide +kernel

end Telemetry.Calendar
