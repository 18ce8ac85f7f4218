import Telemetry.Proofs.SerialDates

/-!
# Instants put together again

The components of an instant lead back to it.  Year, month and day make the midnight in front of it
and hour, minute and second its time of day up to the second, so that both together are the instant
without its fraction; the day of the year counts from the first of January, and the days of the week
follow each other (`Component.instant_rebuilt`).

The instants of 1677 are left out: they have components, but no date is made from these, because
their year begins before all instants.
-/

namespace Telemetry.Calendar

/-! ### Components as words -/

/-- A component of an instant as a word. -/
def Component.word (t : Instant) (c : Component) : Int64 := .ofInt (c.of t)

/-- Every component is a word. -/
theorem Component.toInt_word (t : Instant) (c : Component) : (c.word t).toInt = c.of t := by
  have hyear := year_bounds t
  have hmonth := month_bounds t
  have hday := day_le t
  have hhour := hourOf_lt t
  have hminute := minuteOf_lt t
  have hsecond := secondOf_lt t
  have hrest := dayOfYear_lt (dayOf t)
  have hlength : yearLength (isLeap (yearOfDay (dayOf t))) ≤ 366 := by
    cases isLeap (yearOfDay (dayOf t)) <;> decide
  refine Word.toInt_ofInt ?_
  cases c <;> simp only [Component.of] <;> omega

/-! ### Dates and times of day -/

/-- The first of its month and the days behind it make up a date of the calendar. -/
theorem Date.toDay_eq_firstOf {d : Date} (h : d.isValid = true) :
    d.toDay = (firstOf d.index).toDay + (d.day - 1) := by
  have hbounds := (isValid_iff.1 h).1
  have hyear : d.index / 12 = d.year := by
    simp only [Date.index]
    omega
  have hmonth : (d.index % 12).toNat + 1 = d.month := by
    simp only [Date.index]
    omega
  rw [firstOf, hyear, hmonth, toDay, toDay]
  dsimp only
  omega

/-- **A date of the calendar is made from its numbers**, from the first of January 1678 on. -/
theorem exists_serialDate {d : Date} {year month day : Int64} (hvalid : d.isValid = true)
    (hyear : year.toInt = d.year) (hmonth : month.toInt = d.month) (hday : day.toInt = d.day)
    (hfirst : 1678 ≤ d.year) (hlast : d.toDay ≤ 106751) :
    ∃ r, serialDate year month day = some r ∧ r.toInt = d.toDay * nanosPerDay := by
  obtain ⟨⟨hjanuary, hdecember⟩, hpos, hle⟩ := Date.isValid_iff.1 hvalid
  have hlength := (monthLength_bounds (isLeap d.year) d.month).2
  have hindex : d.index = d.year * 12 + ((d.month : Int) - 1) := rfl
  have hsplit := Date.toDay_eq_firstOf hvalid
  -- the month begins behind October 1677 and no later than the date
  have hstart : (Date.firstOf (1677 * 12 + 9)).toDay ≤ (Date.firstOf d.index).toDay :=
    Date.toDay_firstOf_le (by omega)
  have hearliest : -106751 ≤ (Date.firstOf (1677 * 12 + 9)).toDay := by decide
  have hmonths := firstOf_days_iff.1 ⟨Int.le_trans hearliest hstart, by omega⟩
  obtain ⟨r, hr⟩ : ∃ r : Instant, r.toInt = d.toDay * nanosPerDay :=
    exists_days_iff.2 ⟨by omega, hlast⟩
  refine ⟨r, serialDate_eq_some_iff.2 ⟨isSerial_iff.2 ?_, ?_⟩, hr⟩
  · rw [hyear, hmonth, hday, ← hindex, ← hsplit]
    exact hr
  · rw [hyear, hmonth, hday]
    exact ⟨by omega, by omega, by omega⟩

/-- A time of day is made from its numbers. -/
theorem exists_serialTime (hour minute second : Int64) (hhour : 0 ≤ hour.toInt ∧ hour.toInt < 24)
    (hminute : 0 ≤ minute.toInt ∧ minute.toInt < 60)
    (hsecond : 0 ≤ second.toInt ∧ second.toInt < 60) :
    ∃ r, serialTime hour minute second = some r ∧
      r.toInt = hour.toInt * nanosPerHour + minute.toInt * nanosPerMinute +
        second.toInt * nanosPerSecond := by
  have hunits : (3600000000000 : Int64).toInt = nanosPerHour ∧
      (60000000000 : Int64).toInt = nanosPerMinute ∧ (1000000000 : Int64).toInt = nanosPerSecond :=
    ⟨rfl, rfl, rfl⟩
  simp only [serialTime, bind, Option.bind_eq_some_iff, Word.mul?, Word.add?,
    Word.ofInt?_eq_some_iff, hunits]
  simp only [nanosPerHour, nanosPerMinute, nanosPerSecond]
  -- no step is longer than a day
  obtain ⟨hours, hhours⟩ : ∃ w : Int64, w.toInt = hour.toInt * (60 * (60 * 1000000000)) :=
    Word.exists_toInt_iff.2 (by omega)
  obtain ⟨minutes, hminutes⟩ : ∃ w : Int64, w.toInt = minute.toInt * (60 * 1000000000) :=
    Word.exists_toInt_iff.2 (by omega)
  obtain ⟨seconds, hseconds⟩ : ∃ w : Int64, w.toInt = second.toInt * 1000000000 :=
    Word.exists_toInt_iff.2 (by omega)
  obtain ⟨clock, hclock⟩ : ∃ w : Int64, w.toInt = hours.toInt + minutes.toInt :=
    Word.exists_toInt_iff.2 (by omega)
  obtain ⟨time, htime⟩ : ∃ w : Int64, w.toInt = clock.toInt + seconds.toInt :=
    Word.exists_toInt_iff.2 (by omega)
  refine ⟨time, ⟨hours, hhours, minutes, hminutes, seconds, hseconds, clock, hclock, htime⟩, ?_⟩
  rw [htime, hclock, hhours, hminutes, hseconds]

/-! ### Rebuilding an instant -/

/-- From 1678 on the second of an instant begins within the range. -/
theorem toInt_floorTo_second {t : Instant} (h : 1678 ≤ (dateOf t).year) :
    (floorTo t 1000000000).toInt = dayOf t * nanosPerDay + (timeOf t - nanoOf t) := by
  have hunit : (1000000000 : Int64).toInt = 1000000000 := rfl
  have hbegins : yearStart 1678 ≤ dayOf t :=
    Int.le_trans (yearStart_mono h) (yearStart_yearOfDay (dayOf t)).1
  have hstart : yearStart 1678 = -106650 := by decide
  rw [toInt_floorTo, hunit, if_neg (by decide)]
  simp only [hstart, nanoOf, timeOf, dayOf, nanosPerDay, nanosPerHour, nanosPerMinute,
    nanosPerSecond] at hbegins ⊢
  omega

theorem dayOf_of_toInt {r : Instant} {day : Int} (h : r.toInt = day * nanosPerDay) :
    dayOf r = day := by
  rw [dayOf, h]
  exact Int.mul_ediv_cancel _ (by decide)

/-- The next day has the next day of the week. -/
theorem weekday_of_add {t next : Instant} (h : Word.add? t 86400000000000 = some next) :
    Component.weekday.of next =
      if Component.weekday.of t = 7 then 1 else Component.weekday.of t + 1 := by
  have hnext : next.toInt = t.toInt + 86400000000000 := Word.ofInt?_eq_some_iff.1 h
  have hday : dayOf next = dayOf t + 1 := by
    simp only [dayOf, hnext, nanosPerDay, nanosPerHour, nanosPerMinute, nanosPerSecond]
    omega
  by_cases hlast : Component.weekday.of t = 7
  · rw [if_pos hlast]
    simp only [Component.of, weekday, hday] at hlast ⊢
    omega
  · rw [if_neg hlast]
    simp only [Component.of, weekday, hday] at hlast ⊢
    omega

namespace Component

variable {t : Instant}

/-- Year, month and day make the midnight in front of an instant. -/
theorem exists_midnight (h : 1678 ≤ year.of t) :
    ∃ midnight, serialDate (year.word t) (month.word t) (day.word t) = some midnight ∧
      midnight.toInt = dayOf t * nanosPerDay := by
  have htoDay := toDay_dateOf t
  have hrange := (dayOf_bounds t).2
  obtain ⟨midnight, hmade, hmidnight⟩ := exists_serialDate (isValid_dateOf t)
    (toInt_word t year) (toInt_word t month) (toInt_word t day) h (by omega)
  exact ⟨midnight, hmade, htoDay ▸ hmidnight⟩

/-- Hour, minute and second make the time of day without the fraction of the second. -/
theorem exists_clock (t : Instant) :
    ∃ time, serialTime (hour.word t) (minute.word t) (second.word t) = some time ∧
      time.toInt = timeOf t - nanoOf t := by
  have hhour : (hour.word t).toInt = hourOf t := toInt_word t hour
  have hminute : (minute.word t).toInt = minuteOf t := toInt_word t minute
  have hsecond : (second.word t).toInt = secondOf t := toInt_word t second
  have hhours := hourOf_lt t
  have hminutes := minuteOf_lt t
  have hseconds := secondOf_lt t
  have hmade := exists_serialTime (hour.word t) (minute.word t) (second.word t)
    (by omega) (by omega) (by omega)
  rw [hhour, hminute, hsecond] at hmade
  obtain ⟨time, hclock, htime⟩ := hmade
  refine ⟨time, hclock, ?_⟩
  rw [htime, timeOf_eq]
  omega

/-- The year makes its first midnight, from which the days of the year are counted. -/
theorem exists_newYear (h : 1678 ≤ year.of t) :
    ∃ newYear, serialDate (year.word t) 1 1 = some newYear ∧
      dayOf newYear = yearStart (dateOf t).year := by
  have hbegins : yearStart (dateOf t).year ≤ dayOf t := (yearStart_yearOfDay (dayOf t)).1
  have hrange := (dayOf_bounds t).2
  have htoDay := Date.toDay_newYear (dateOf t).year
  obtain ⟨newYear, hmade, hnewYear⟩ := exists_serialDate (Date.isValid_newYear (dateOf t).year)
    (toInt_word t year) (rfl : (1 : Int64).toInt = 1) (rfl : (1 : Int64).toInt = 1) h (by omega)
  exact ⟨newYear, hmade, dayOf_of_toInt (htoDay ▸ hnewYear)⟩

/-- **The components of an instant lead back to it**, from 1678 on.  Every component is a word; the
first six make a midnight and a time of day that are together the instant without its fraction; the
day of the year counts from the date that is made for the first of January; and a day later is the
next day of the week. -/
theorem instant_rebuilt (t : Instant) (h : 1678 ≤ year.of t) :
    (∀ c : Component, (c.word t).toInt = c.of t) ∧
      (∃ midnight time, serialDate (year.word t) (month.word t) (day.word t) = some midnight ∧
        serialTime (hour.word t) (minute.word t) (second.word t) = some time ∧
        midnight.toInt + time.toInt = (floorTo t 1000000000).toInt) ∧
      (∃ newYear, serialDate (year.word t) 1 1 = some newYear ∧
        dayOfYear.of t = Interval.day.between newYear t + 1) ∧
      ∀ next, Word.add? t 86400000000000 = some next →
        weekday.of next = if weekday.of t = 7 then 1 else weekday.of t + 1 := by
  refine ⟨toInt_word t, ?_, ?_, fun next hnext => weekday_of_add hnext⟩
  · obtain ⟨midnight, hmade, hmidnight⟩ := exists_midnight h
    obtain ⟨time, hclock, htime⟩ := exists_clock t
    refine ⟨midnight, time, hmade, hclock, ?_⟩
    rw [hmidnight, htime, toInt_floorTo_second h]
  · obtain ⟨newYear, hmade, hday⟩ := exists_newYear h
    have hrest : yearStart (dateOf t).year + Calendar.dayOfYear (dayOf t) = dayOf t :=
      yearStart_add_dayOfYear (dayOf t)
    refine ⟨newYear, hmade, ?_⟩
    show (Calendar.dayOfYear (dayOf t) : Int) + 1 = dayOf t - dayOf newYear + 1
    omega

/-- The last nanosecond of 1960, on the last day of a leap year and a Saturday. -/
theorem instant_rebuilt_lastOf1960 :
    1678 ≤ year.of (-283996800000000001) ∧
      Word.add? (-283996800000000001) 86400000000000 = some (-283910400000000001) ∧
      (∃ midnight time, serialDate 1960 12 31 = some midnight ∧
        serialTime 23 59 59 = some time ∧ midnight.toInt + time.toInt = -283996801000000000) ∧
      (∃ newYear, serialDate 1960 1 1 = some newYear ∧
        366 = Interval.day.between newYear (-283996800000000001) + 1) ∧
      weekday.of (-283910400000000001) = 1 := by
  have hyear : 1678 ≤ year.of (-283996800000000001) := by decide +kernel
  have hnext : Word.add? (-283996800000000001) 86400000000000 = some (-283910400000000001) := by
    decide +kernel
  have hdate : year.word (-283996800000000001) = 1960 ∧ month.word (-283996800000000001) = 12 ∧
      day.word (-283996800000000001) = 31 := by decide +kernel
  have htime : hour.word (-283996800000000001) = 23 ∧ minute.word (-283996800000000001) = 59 ∧
      second.word (-283996800000000001) = 59 := by decide +kernel
  have hfloor : (floorTo (-283996800000000001) 1000000000).toInt = -283996801000000000 := by
    decide +kernel
  have hdays : dayOfYear.of (-283996800000000001) = 366 ∧
      weekday.of (-283996800000000001) = 7 := by decide +kernel
  obtain ⟨-, hparts, hnewYear, hweekday⟩ := instant_rebuilt (-283996800000000001) hyear
  rw [hdate.1, hdate.2.1, hdate.2.2, htime.1, htime.2.1, htime.2.2, hfloor] at hparts
  rw [hdate.1, hdays.1] at hnewYear
  have hsunday := hweekday _ hnext
  rw [if_pos hdays.2] at hsunday
  exact ⟨hyear, hnext, hparts, hnewYear, hsunday⟩

end Component

end Telemetry.Calendar
