import Telemetry.Proofs.Intervals

/-!
# Periods partition time

The periods of a unit are numbered through all of time (`Period.number`): hours and days as time
elapses, weeks from Monday to Sunday, months and years by the calendar.  Two instants share a period
exactly if it has one number (`Period.shares_iff_number`), also where a week runs into another year, whose
week it then is (`IsoWeek.ofDay_eq_iff`).

So the periods of a unit divide time into stretches without gaps, and those of a shorter unit never
cross the boundaries of a longer one, but for weeks in months and years (`Period.partitions_time`).
-/

namespace Telemetry.Calendar

/-! ### Weeks -/

/-- Weeks are named by their Thursdays, which lie whole weeks away from the first of January 1970. -/
theorem thursdayOf_eq (day : Int) : thursdayOf day = 7 * ((day + 3) / 7) := by
  simp only [thursdayOf, weekday]
  omega

/-- **Days have one ISO week if no Monday lies between them**, and only then: the number of the week
and the year that it belongs to tell all weeks apart. -/
theorem IsoWeek.ofDay_eq_iff {day later : Int} :
    IsoWeek.ofDay day = IsoWeek.ofDay later ↔ (day + 3) / 7 = (later + 3) / 7 := by
  have hday := yearStart_add_dayOfYear (thursdayOf day)
  have hlater := yearStart_add_dayOfYear (thursdayOf later)
  have hfirst := thursdayOf_eq day
  have hsecond := thursdayOf_eq later
  have hweek : ∀ d, IsoWeek.ofDay d = ⟨yearOfDay (thursdayOf d), dayOfYear (thursdayOf d) / 7 + 1⟩ :=
    fun d => rfl
  rw [hweek, hweek, mk.injEq]
  constructor
  · rintro ⟨hyear, hnumber⟩
    -- in one year, Thursdays of one number lie less than a week apart
    rw [hyear] at hday
    omega
  · intro hmonday
    rw [hmonday, ← hsecond] at hfirst
    rw [hfirst]
    exact ⟨rfl, rfl⟩

namespace Period

/-! ### Numbers of periods -/

/-- The number of the period of a unit in which an instant lies, counted through all of time. -/
def number (t : Instant) : Period → Int
  | hour => t.toInt / nanosPerHour
  | day => dayOf t
  | week => (dayOf t + 3) / 7
  | month => monthIndex t
  | year => (dateOf t).year

variable {s t v : Instant}

theorem number_hour (t : Instant) : number t hour = 24 * dayOf t + hourOf t := by
  simp only [number, dayOf, hourOf, timeOf, nanosPerDay, nanosPerHour, nanosPerMinute,
    nanosPerSecond]
  omega

/-- **Instants share a period if it has one number**, and only then. -/
theorem shares_iff_number (u : Period) (s t : Instant) :
    u.shares s t = true ↔ u.number s = u.number t := by
  rw [shares_iff]
  cases u with
  | hour =>
      have hs := hourOf_lt s
      have ht := hourOf_lt t
      rw [number_hour, number_hour]
      simp only [key, List.cons.injEq, and_true]
      omega
  | day => simp only [key, number, List.cons.injEq, and_true]
  | week =>
      have hfields : ∀ a b : IsoWeek,
          [a.year, (a.week : Int)] = [b.year, (b.week : Int)] ↔ a = b := by
        rintro ⟨year, week⟩ ⟨otherYear, otherWeek⟩
        simp only [List.cons.injEq, and_true, IsoWeek.mk.injEq, Int.natCast_inj]
      exact (hfields _ _).trans IsoWeek.ofDay_eq_iff
  | month =>
      have hs := month_bounds s
      have ht := month_bounds t
      simp only [key, number, monthIndex, List.cons.injEq, and_true]
      omega
  | year => simp only [key, number, List.cons.injEq, and_true]

/-! ### The partition -/

theorem shares_equivalence (u : Period) : Equivalence fun s t : Instant => u.shares s t = true :=
  ⟨shares_refl u, shares_symm, shares_trans⟩

theorem day_of_hour (h : hour.shares s t = true) : day.shares s t = true := by
  rw [shares_iff_number, number_hour, number_hour] at h
  have hs := hourOf_lt s
  have ht := hourOf_lt t
  rw [shares_iff_number, number, number]
  omega

theorem week_of_day (h : day.shares s t = true) : week.shares s t = true := by
  rw [shares_iff_number] at h ⊢
  exact congrArg (fun day : Int => (day + 3) / 7) h

theorem month_of_day (h : day.shares s t = true) : month.shares s t = true := by
  rw [shares_iff_number] at h ⊢
  exact congrArg (fun day => (Date.ofDay day).index) h

theorem year_of_month (h : month.shares s t = true) : year.shares s t = true := by
  rw [shares_iff_number, number, number, monthIndex_eq, monthIndex_eq] at h
  rw [shares_iff_number]
  exact (Date.of_index_eq (isValid_dateOf s) (isValid_dateOf t) h).1

/-- **Periods partition time.**  Sharing a period of a unit is an equivalence, and it is to have the
same number; its classes have no gaps; and an hour lies in one day, a day in one week and one month,
and a month in one year. -/
theorem partitions_time :
    (∀ (u : Period) (s t : Instant), u.shares s t = true ↔ u.number s = u.number t) ∧
      (∀ u : Period, Equivalence fun s t : Instant => u.shares s t = true) ∧
      (∀ (u : Period) (s t v : Instant), s ≤ t → t ≤ v → u.shares s v = true →
        u.shares s t = true) ∧
      ∀ s t : Instant, (hour.shares s t = true → day.shares s t = true) ∧
        (day.shares s t = true → week.shares s t = true ∧ month.shares s t = true) ∧
        (month.shares s t = true → year.shares s t = true) := by
  refine ⟨shares_iff_number, shares_equivalence, ?_, fun s t => ⟨day_of_hour, ?_, year_of_month⟩⟩
  · intro u s t v hst htv h
    exact shares_trans h (shares_symm (shares_between hst htv h))
  · exact fun h => ⟨week_of_day h, month_of_day h⟩

/-- The first week of 1969 begins in 1968: the last nanosecond of that year lies in it, between its
Monday and its Sunday. -/
theorem partitions_time_weekOf1969 :
    (-31708800000000000 : Instant) ≤ -31536000000000001 ∧
      (-31536000000000001 : Instant) ≤ -31104000000000001 ∧
      week.shares (-31708800000000000) (-31104000000000001) = true ∧
      week.shares (-31708800000000000) (-31536000000000001) = true ∧
      hour.shares (-31539600000000000) (-31536000000000001) = true ∧
      week.shares (-31539600000000000) (-31536000000000001) = true ∧
      year.shares (-31539600000000000) (-31536000000000001) = true := by
  have hmonday : (-31708800000000000 : Instant) ≤ -31536000000000001 := by decide
  have hsunday : (-31536000000000001 : Instant) ≤ -31104000000000001 := by decide
  have hweek : week.shares (-31708800000000000) (-31104000000000001) = true := by decide +kernel
  have hhour : hour.shares (-31539600000000000) (-31536000000000001) = true := by decide +kernel
  obtain ⟨-, -, hbetween, hnested⟩ := partitions_time
  obtain ⟨hday, hweekMonth, hyear⟩ := hnested (-31539600000000000) (-31536000000000001)
  exact ⟨hmonday, hsunday, hweek, hbetween week _ _ _ hmonday hsunday hweek, hhour,
    (hweekMonth (hday hhour)).1, hyear (hweekMonth (hday hhour)).2⟩

end Period

end Telemetry.Calendar
