import Mathlib.Tactic.SplitIfs
import Telemetry.Proofs.Periods

/-!
# Dates and day numbers

Dates of the calendar and day numbers stand for each other: a day number has a date of the calendar
(`Date.isValid_ofDay`) that has this day number (`Date.toDay_ofDay`), and a date of the calendar is
the date of its day number (`Date.ofDay_toDay`).  A year is as long as its months, and every day of
it lies in one of them; what is said of months alone is found by going through the table of both
kinds of years.

Moving a date by months moves the number of its month (`Date.addMonths_spec`), and an instant that
is put together from a day and a time of day is taken apart into them (`dayOf_of_instant?`).
-/

namespace Telemetry.Calendar

/-! ### Months of a year -/

/-- The number of days in a year. -/
def yearLength (leap : Bool) : Nat := if leap then 366 else 365

theorem yearStart_succ (year : Int) :
    yearStart (year + 1) = yearStart year + yearLength (isLeap year) := by
  simp only [yearStart, yearLength, isLeap]
  by_cases h4 : year % 4 = 0 <;> by_cases h100 : year % 100 = 0 <;>
    by_cases h400 : year % 400 = 0 <;> simp [h4, h100, h400] <;> omega

theorem monthLength_bounds (leap : Bool) (month : Nat) :
    1 ≤ monthLength leap month ∧ monthLength leap month ≤ 31 := by
  rw [monthLength]
  split_ifs <;> decide

/-- A month that is not the last of two ends before the later one begins. -/
theorem monthEnd_le (leap : Bool) {month later : Nat} (hpos : 1 ≤ month) (hlt : month < later)
    (hlast : later ≤ 12) :
    monthStart leap month + monthLength leap month ≤ monthStart leap later := by
  have hall : ∀ leap : Bool, ∀ later < 13, ∀ month < later, 1 ≤ month →
      monthStart leap month + monthLength leap month ≤ monthStart leap later := by decide
  exact hall leap later (by omega) month hlt hpos

/-- The number of the month that a day of the year falls into. -/
def monthAt (leap : Bool) (rest : Nat) : Nat :=
  ((monthStarts leap).takeWhile (· ≤ rest)).length

/-- **Every day of a year falls into a month.** -/
theorem monthAt_spec (leap : Bool) {rest : Nat} (h : rest < yearLength leap) :
    1 ≤ monthAt leap rest ∧ monthAt leap rest ≤ 12 ∧
      monthStart leap (monthAt leap rest) ≤ rest ∧
      rest < monthStart leap (monthAt leap rest) + monthLength leap (monthAt leap rest) := by
  have hall : ∀ leap : Bool, ∀ rest < 366, rest < yearLength leap →
      1 ≤ monthAt leap rest ∧ monthAt leap rest ≤ 12 ∧
        monthStart leap (monthAt leap rest) ≤ rest ∧
        rest < monthStart leap (monthAt leap rest) + monthLength leap (monthAt leap rest) := by
    decide +kernel
  have hyear : yearLength leap ≤ 366 := by cases leap <;> decide
  exact hall leap rest (by omega) h

/-- A day falls into no other month. -/
theorem monthAt_eq (leap : Bool) {month rest : Nat} (hpos : 1 ≤ month) (hlast : month ≤ 12)
    (hstart : monthStart leap month ≤ rest)
    (hend : rest < monthStart leap month + monthLength leap month) :
    monthAt leap rest = month ∧ rest < yearLength leap := by
  have hyear : ∀ leap : Bool, ∀ month < 13, 1 ≤ month →
      monthStart leap month + monthLength leap month ≤ yearLength leap := by decide
  have hlt : rest < yearLength leap := by
    have hle := hyear leap month (by omega) hpos
    omega
  obtain ⟨hfirst, hbound, hbegins, hends⟩ := monthAt_spec leap hlt
  refine ⟨?_, hlt⟩
  rcases Nat.lt_trichotomy (monthAt leap rest) month with hless | heq | hmore
  · have hle := monthEnd_le leap hfirst hless hlast
    omega
  · exact heq
  · have hle := monthEnd_le leap hpos hmore hbound
    omega

/-! ### Years -/

theorem yearOfDay_eq {year day : Int} (hstart : yearStart year ≤ day)
    (hend : day < yearStart (year + 1)) : yearOfDay day = year := by
  obtain ⟨hfirst, hlast⟩ := yearStart_yearOfDay day
  rcases Int.lt_trichotomy (yearOfDay day) year with hless | heq | hmore
  · have hle := yearStart_mono (y := yearOfDay day + 1) (z := year) (by omega)
    omega
  · exact heq
  · have hle := yearStart_mono (y := year + 1) (z := yearOfDay day) (by omega)
    omega

theorem dayOfYear_lt (day : Int) : dayOfYear day < yearLength (isLeap (yearOfDay day)) := by
  obtain ⟨hfirst, hlast⟩ := yearStart_yearOfDay day
  rw [yearStart_succ] at hlast
  simp only [dayOfYear]
  omega

theorem yearStart_add_dayOfYear (day : Int) :
    yearStart (yearOfDay day) + dayOfYear day = day := by
  obtain ⟨hfirst, -⟩ := yearStart_yearOfDay day
  simp only [dayOfYear]
  omega

/-! ### Dates -/

namespace Date

variable {d : Date}

theorem isValid_iff :
    d.isValid = true ↔ (1 ≤ d.month ∧ d.month ≤ 12) ∧
      1 ≤ d.day ∧ d.day ≤ monthLength (isLeap d.year) d.month := by
  simp only [isValid, Bool.and_eq_true, decide_eq_true_eq, and_assoc]

theorem ofDay_eq (day : Int) :
    ofDay day = ⟨yearOfDay day, monthAt (isLeap (yearOfDay day)) (dayOfYear day),
      dayOfYear day - monthStart (isLeap (yearOfDay day))
        (monthAt (isLeap (yearOfDay day)) (dayOfYear day)) + 1⟩ := rfl

/-- A day number has a date of the calendar. -/
theorem isValid_ofDay (day : Int) : (ofDay day).isValid = true := by
  obtain ⟨hpos, hlast, hstart, hend⟩ := monthAt_spec _ (dayOfYear_lt day)
  rw [isValid_iff, ofDay_eq]
  refine ⟨⟨hpos, hlast⟩, ?_, ?_⟩ <;> dsimp only <;> omega

/-- **The date of a day number has this day number.** -/
theorem toDay_ofDay (day : Int) : (ofDay day).toDay = day := by
  obtain ⟨-, -, hstart, -⟩ := monthAt_spec _ (dayOfYear_lt day)
  have hday := yearStart_add_dayOfYear day
  rw [toDay, ofDay_eq]
  dsimp only
  omega

/-- **A date of the calendar is the date of its day number.** -/
theorem ofDay_toDay (h : d.isValid = true) : ofDay d.toDay = d := by
  obtain ⟨⟨hpos, hlast⟩, hfirst, hday⟩ := isValid_iff.1 h
  -- the days in front of the date in its year
  obtain ⟨rest, hrest⟩ : ∃ rest, rest = monthStart (isLeap d.year) d.month + d.day - 1 := ⟨_, rfl⟩
  have hstart : monthStart (isLeap d.year) d.month ≤ rest := by omega
  obtain ⟨hmonth, hlt⟩ := monthAt_eq (isLeap d.year) hpos hlast hstart (by omega)
  have htoDay : d.toDay = yearStart d.year + rest := by
    rw [toDay]
    omega
  have hyear : yearOfDay d.toDay = d.year := by
    refine yearOfDay_eq (by omega) ?_
    rw [yearStart_succ]
    omega
  have hdays : dayOfYear d.toDay = rest := by
    rw [dayOfYear, hyear]
    omega
  rw [ofDay_eq, hyear, hdays, hmonth]
  have hnumber : rest - monthStart (isLeap d.year) d.month + 1 = d.day := by omega
  rw [hnumber]

/-- The number of the month of a date, counted from year zero. -/
def index (d : Date) : Int := d.year * 12 + (d.month - 1 : Int)

/-- **Moving a date by months moves its month by as many**, and keeps the day if the month is long
enough. -/
theorem addMonths_spec (h : d.isValid = true) (months : Int) :
    (d.addMonths months).isValid = true ∧ (d.addMonths months).index = d.index + months ∧
      (d.addMonths months).day =
        min d.day (monthLength (isLeap (d.addMonths months).year) (d.addMonths months).month) := by
  obtain ⟨-, hfirst, -⟩ := isValid_iff.1 h
  have hpos := (monthLength_bounds (isLeap (d.addMonths months).year) (d.addMonths months).month).1
  have hday : (d.addMonths months).day =
      min d.day (monthLength (isLeap (d.addMonths months).year) (d.addMonths months).month) := rfl
  have hmonth : (d.addMonths months).month = ((d.index + months) % 12).toNat + 1 := rfl
  have hyear : (d.addMonths months).year = (d.index + months) / 12 := rfl
  refine ⟨isValid_iff.2 ⟨⟨by omega, by omega⟩, by omega, by omega⟩, ?_, hday⟩
  show (d.addMonths months).year * 12 + ((d.addMonths months).month - 1 : Int) = _
  omega

end Date

/-! ### Instants -/

/-- An instant that is put together from a day and a time of that day is taken apart into them. -/
theorem dayOf_of_instant? {day : Int} {time : Nat} {t : Instant}
    (htime : (time : Int) < nanosPerDay) (h : instant? day time = some t) :
    dayOf t = day ∧ timeOf t = time := by
  have hword := Word.ofInt?_eq_some_iff.1 h
  simp only [dayOf, timeOf, hword]
  simp only [nanosPerDay, nanosPerHour, nanosPerMinute, nanosPerSecond] at htime ⊢
  omega

theorem timeOf_lt (t : Instant) : (timeOf t : Int) < nanosPerDay := by
  simp only [timeOf, nanosPerDay, nanosPerHour, nanosPerMinute, nanosPerSecond]
  omega

theorem isValid_dateOf (t : Instant) : (dateOf t).isValid = true := Date.isValid_ofDay (dayOf t)

theorem toDay_dateOf (t : Instant) : (dateOf t).toDay = dayOf t := Date.toDay_ofDay (dayOf t)

theorem day_le (t : Instant) : (dateOf t).day ≤ 31 :=
  Nat.le_trans (Date.isValid_iff.1 (isValid_dateOf t)).2.2 (monthLength_bounds _ _).2

theorem hourOf_lt (t : Instant) : hourOf t < 24 := by
  have htime := timeOf_lt t
  simp only [nanosPerDay, nanosPerHour, nanosPerMinute, nanosPerSecond] at htime
  rw [hourOf]
  omega

theorem minuteOf_lt (t : Instant) : minuteOf t < 60 := Nat.mod_lt _ (by decide)

theorem secondOf_lt (t : Instant) : secondOf t < 60 := Nat.mod_lt _ (by decide)

theorem nanoOf_lt (t : Instant) : nanoOf t < 1000000000 := Nat.mod_lt _ (by decide)

/-- The parts of a time of day make it up. -/
theorem timeOf_eq (t : Instant) :
    (timeOf t : Int) = hourOf t * nanosPerHour + minuteOf t * nanosPerMinute +
      secondOf t * nanosPerSecond + nanoOf t := by
  simp only [hourOf, minuteOf, secondOf, nanoOf, nanosPerHour, nanosPerMinute, nanosPerSecond]
  omega

end Telemetry.Calendar
