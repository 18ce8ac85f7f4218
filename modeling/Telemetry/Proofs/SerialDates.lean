import Telemetry.Proofs.Intervals

/-!
# Dates made from numbers

Where the day lies that is made from a year, a month and a day is said in unbounded integers
(`IsSerial`): months are counted on from January of the year and days from the first of the month
that is reached, so that neither has to be one of the calendar.

* `serialDate_iff`: a date is made exactly if its midnight is an instant and every step on the way
  to it stays in range (`Passable`); and then it is this midnight.
* `serialDate_none_in_range`: a midnight in range may not be reached.  The year 1677 has no dates,
  although its last three months lie in the range of instants.
-/

namespace Telemetry

/-- The integers in range are those that a word stands for. -/
theorem Word.exists_toInt_iff {x : Int} :
    (∃ w : Int64, w.toInt = x) ↔ -9223372036854775808 ≤ x ∧ x ≤ 9223372036854775807 := by
  constructor
  · rintro ⟨w, rfl⟩
    exact toInt_bounds w
  · intro h
    exact ⟨Int64.ofInt x, toInt_ofInt h⟩

namespace Calendar

/-! ### First days -/

namespace Date

/-- The first day of a month, which is counted from year zero. -/
def firstOf (index : Int) : Date := ⟨index / 12, (index % 12).toNat + 1, 1⟩

theorem isValid_firstOf (index : Int) : (firstOf index).isValid = true := by
  have hmonth : (firstOf index).month = (index % 12).toNat + 1 := rfl
  exact isValid_iff.2 ⟨⟨by omega, by omega⟩, Nat.le_refl 1, (monthLength_bounds _ _).1⟩

@[simp] theorem index_firstOf (index : Int) : (firstOf index).index = index := by
  simp only [firstOf, Date.index]
  omega

/-- The first day of a later month comes later. -/
theorem toDay_firstOf_lt {index later : Int} (h : index < later) :
    (firstOf index).toDay < (firstOf later).toDay := by
  refine Int.not_le.1 fun hle => ?_
  have hindex := index_ofDay_mono hle
  rw [ofDay_toDay (isValid_firstOf later), ofDay_toDay (isValid_firstOf index), index_firstOf,
    index_firstOf] at hindex
  omega

theorem toDay_firstOf_le {index later : Int} (h : index ≤ later) :
    (firstOf index).toDay ≤ (firstOf later).toDay := by
  rcases Int.lt_or_eq_of_le h with hlt | rfl
  · exact Int.le_of_lt (toDay_firstOf_lt hlt)
  · exact Int.le_refl _

/-- Months on from the first of a year lead to the first of a month. -/
theorem addMonths_newYear (year months : Int) :
    (Date.mk year 1 1).addMonths months = firstOf (year * 12 + months) := by
  have hindex : year * 12 + ((1 : Nat) - 1 : Int) + months = year * 12 + months := by omega
  have hday : ∀ leap : Bool, ∀ month, min 1 (monthLength leap month) = 1 := fun leap month =>
    Nat.min_eq_left (monthLength_bounds leap month).1
  simp only [addMonths, hindex, hday, firstOf]

theorem isValid_newYear (year : Int) : (Date.mk year 1 1).isValid = true :=
  isValid_iff.2 ⟨⟨Nat.le_refl 1, (by decide : 1 ≤ 12)⟩, Nat.le_refl 1, (monthLength_bounds _ _).1⟩

theorem toDay_newYear (year : Int) : (Date.mk year 1 1).toDay = yearStart year := by
  have hstart : monthStart (isLeap year) 1 = 0 := by cases isLeap year <;> rfl
  simp only [toDay, hstart]
  omega

end Date

/-! ### The range in days, months and years -/

/-- A word counts the nanoseconds of at most 106751 days. -/
theorem exists_days_iff {days : Int} :
    (∃ w : Int64, w.toInt = days * nanosPerDay) ↔ -106751 ≤ days ∧ days ≤ 106751 := by
  rw [Word.exists_toInt_iff]
  simp only [nanosPerDay, nanosPerHour, nanosPerMinute, nanosPerSecond]
  omega

/-- The years that begin in the range of instants. -/
theorem yearStart_days_iff {year : Int} :
    (-106751 ≤ yearStart year ∧ yearStart year ≤ 106751) ↔ 1678 ≤ year ∧ year ≤ 2262 := by
  simp only [yearStart]
  omega

/-- The months that begin in the range of instants, from October 1677 to April 2262. -/
theorem firstOf_days_iff {index : Int} :
    (-106751 ≤ (Date.firstOf index).toDay ∧ (Date.firstOf index).toDay ≤ 106751) ↔
      1677 * 12 + 9 ≤ index ∧ index ≤ 2262 * 12 + 3 := by
  have hends : (Date.firstOf (1677 * 12 + 8)).toDay = -106772 ∧
      (Date.firstOf (1677 * 12 + 9)).toDay = -106742 ∧
      (Date.firstOf (2262 * 12 + 3)).toDay = 106741 ∧
      (Date.firstOf (2262 * 12 + 4)).toDay = 106771 := by decide
  constructor
  · rintro ⟨hfirst, hlast⟩
    constructor
    · refine Int.not_lt.1 fun hlt => ?_
      have hle : (Date.firstOf index).toDay ≤ (Date.firstOf (1677 * 12 + 8)).toDay :=
        Date.toDay_firstOf_le (by omega)
      omega
    · refine Int.not_lt.1 fun hlt => ?_
      have hle : (Date.firstOf (2262 * 12 + 4)).toDay ≤ (Date.firstOf index).toDay :=
        Date.toDay_firstOf_le (by omega)
      omega
  · rintro ⟨hfirst, hlast⟩
    have hlower := Date.toDay_firstOf_le hfirst
    have hupper := Date.toDay_firstOf_le hlast
    omega

/-! ### Where a date belongs -/

/-- `x` is the nanosecond with which a day begins that is `day - 1` days behind the first of the
month that is `month - 1` months behind January of a year. -/
def IsSerial (year month day x : Int) : Prop :=
  ∃ first : Date, first.isValid = true ∧ first.day = 1 ∧ first.index = year * 12 + (month - 1) ∧
    x = (first.toDay + (day - 1)) * nanosPerDay

theorem isSerial_iff {year month day x : Int} :
    IsSerial year month day x ↔
      x = ((Date.firstOf (year * 12 + (month - 1))).toDay + (day - 1)) * nanosPerDay := by
  constructor
  · rintro ⟨first, hvalid, hday, hindex, rfl⟩
    rw [Date.eq_of_index hvalid (Date.isValid_firstOf _) (hindex.trans (Date.index_firstOf _).symm)
      hday]
  · rintro rfl
    exact ⟨_, Date.isValid_firstOf _, rfl, Date.index_firstOf _, rfl⟩

/-- The steps on the way to a date stay in range: its year and the month that is reached begin at
an instant, and a word counts the nanoseconds of the days that are added. -/
structure Passable (year month day : Int) : Prop where
  years : 1678 ≤ year ∧ year ≤ 2262
  months : 1677 * 12 + 9 ≤ year * 12 + (month - 1) ∧ year * 12 + (month - 1) ≤ 2262 * 12 + 3
  days : -106751 ≤ day - 1 ∧ day - 1 ≤ 106751

/-! ### The steps -/

variable {year month day : Int64} {base shifted r : Instant}

/-- From the start of a year, months lead to the start of a month. -/
theorem add_newYear_iff {months : Int64} (h : base.toInt = yearStart year.toInt * nanosPerDay) :
    Interval.month.add months base = some shifted ↔
      shifted.toInt = (Date.firstOf (year.toInt * 12 + months.toInt)).toDay * nanosPerDay := by
  have hbase : instant? (yearStart year.toInt) (0 : Nat) = some base :=
    Word.ofInt?_eq_some_iff.2 (by omega)
  obtain ⟨hday, htime⟩ := dayOf_of_instant? (by decide) hbase
  have hdate : dateOf base = ⟨year.toInt, 1, 1⟩ := by
    rw [dateOf, hday, ← Date.toDay_newYear]
    exact Date.ofDay_toDay (Date.isValid_newYear year.toInt)
  have hmonths : months.toInt * Interval.month.months = months.toInt := Int.mul_one _
  rw [Interval.add_eq_some_iff]
  show ShiftsMonths (months.toInt * Interval.month.months) base shifted.toInt ∧ True ↔ _
  rw [and_true, shiftsMonths_iff, hmonths, hdate, Date.addMonths_newYear, htime]
  simp

/-- **A date is made from numbers exactly if it lies in range with every step towards it**, and it
is the midnight of the day where it belongs. -/
theorem serialDate_eq_some_iff :
    serialDate year month day = some r ↔
      IsSerial year.toInt month.toInt day.toInt r.toInt ∧
        Passable year.toInt month.toInt day.toInt := by
  rw [isSerial_iff]
  have hone : (1 : Int64).toInt = 1 := rfl
  have hunit : (86400000000000 : Int64).toInt = nanosPerDay := rfl
  simp only [serialDate, bind, Option.bind_eq_some_iff, Word.sub?, Word.mul?, Word.add?, instant?,
    Word.ofInt?_eq_some_iff, hone, hunit, Int.add_zero]
  constructor
  · rintro ⟨base, hbase, months, hmonths, shifted, hshifted, days, hdays, nanos, hnanos, hr⟩
    rw [add_newYear_iff hbase, hmonths] at hshifted
    rw [hdays] at hnanos
    refine ⟨?_, yearStart_days_iff.1 (exists_days_iff.1 ⟨base, hbase⟩),
      firstOf_days_iff.1 (exists_days_iff.1 ⟨shifted, hshifted⟩),
      exists_days_iff.1 ⟨nanos, hnanos⟩⟩
    rw [hr, hshifted, hnanos, Int.add_mul]
  · rintro ⟨hr, hyears, hmonths, hdays⟩
    obtain ⟨base, hbase⟩ := exists_days_iff.2 (yearStart_days_iff.2 hyears)
    obtain ⟨shifted, hshifted⟩ := exists_days_iff.2 (firstOf_days_iff.2 hmonths)
    obtain ⟨nanos, hnanos⟩ := exists_days_iff.2 hdays
    -- the counts of months and days are words, because the dates they lead to are instants
    obtain ⟨months, hcount⟩ : ∃ w : Int64, w.toInt = month.toInt - 1 :=
      Word.exists_toInt_iff.2 (by omega)
    obtain ⟨days, hrest⟩ : ∃ w : Int64, w.toInt = day.toInt - 1 :=
      Word.exists_toInt_iff.2 (by omega)
    refine ⟨base, hbase, months, hcount, shifted, ?_, days, hrest, nanos, ?_, ?_⟩
    · rw [add_newYear_iff hbase, hcount]
      exact hshifted
    · rw [hnanos, hrest]
    · rw [hr, hshifted, hnanos, Int.add_mul]

/-- **Dates from numbers against the unbounded calendar.**  One nanosecond is the midnight of the
day where three numbers belong, and the date made from them is this midnight if it is an instant
and the steps towards it stay in range. -/
theorem serialDate_iff (year month day : Int64) :
    (∃! x, IsSerial year.toInt month.toInt day.toInt x) ∧
      ∀ r, serialDate year month day = some r ↔
        IsSerial year.toInt month.toInt day.toInt r.toInt ∧
          Passable year.toInt month.toInt day.toInt := by
  refine ⟨?_, fun r => serialDate_eq_some_iff⟩
  simp only [isSerial_iff]
  exact existsUnique_eq

/-- **A midnight in range may not be reached**: the first of October 1677 is an instant, but its
year begins before all instants. -/
theorem serialDate_none_in_range :
    serialDate 1677 10 1 = none ∧
      IsSerial (1677 : Int64).toInt (10 : Int64).toInt (1 : Int64).toInt
        (-9222508800000000000 : Instant).toInt := by
  refine ⟨by decide +kernel, ?_⟩
  rw [isSerial_iff]
  decide +kernel

end Calendar

end Telemetry
