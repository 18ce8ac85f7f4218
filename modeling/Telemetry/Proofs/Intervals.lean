import Mathlib.Logic.ExistsUnique
import Telemetry.Calendar.Interval
import Telemetry.Proofs.CivilDates

/-!
# Moving and measuring by intervals

Where an instant lies that is any number of intervals away is said in unbounded integers
(`Interval.Shifts`): intervals of a fixed length add up, and months keep the time of day and, as far
as the month is long enough, the day.

* `Interval.between_of_add`: the intervals that are added are the intervals that are measured;
  measuring is antisymmetric, and a later instant is no fewer intervals away.
* `Interval.add_iff`: an instant is moved to exactly where it belongs.  By years, quarters and
  months this fails only if there is no instant there; by intervals of a fixed length it fails also
  if the distance is no word, although an instant may be there (`Interval.add_none_in_range`).
-/

namespace Telemetry.Calendar

/-! ### Months of instants -/

theorem monthIndex_eq (t : Instant) : monthIndex t = (dateOf t).index := rfl

theorem month_bounds (t : Instant) : 1 ≤ (dateOf t).month ∧ (dateOf t).month ≤ 12 :=
  (Date.isValid_iff.1 (isValid_dateOf t)).1

theorem dayOf_bounds (t : Instant) : -106752 ≤ dayOf t ∧ dayOf t ≤ 106751 := by
  have hbounds := Word.toInt_bounds t
  simp only [dayOf, nanosPerDay, nanosPerHour, nanosPerMinute, nanosPerSecond]
  omega

/-- Instants lie in the years from 1677 to 2262. -/
theorem year_bounds (t : Instant) : 1677 ≤ (dateOf t).year ∧ (dateOf t).year ≤ 2262 := by
  obtain ⟨hfirst, hlast⟩ := dayOf_bounds t
  have hlower := yearOfDay_mono hfirst
  have hupper := yearOfDay_mono hlast
  have hends : yearOfDay (-106752) = 1677 ∧ yearOfDay 106751 = 2262 := by decide
  show 1677 ≤ yearOfDay (dayOf t) ∧ yearOfDay (dayOf t) ≤ 2262
  omega

/-- Later days lie in later months, or in the same. -/
theorem Date.index_ofDay_mono {day later : Int} (h : day ≤ later) :
    (Date.ofDay day).index ≤ (Date.ofDay later).index := by
  have hyear : (Date.ofDay day).year ≤ (Date.ofDay later).year := yearOfDay_mono h
  have hfirst := (Date.isValid_iff.1 (Date.isValid_ofDay day)).1
  have hlast := (Date.isValid_iff.1 (Date.isValid_ofDay later)).1
  simp only [Date.index]
  by_cases hsame : (Date.ofDay day).year = (Date.ofDay later).year
  · have hmonth : (Date.ofDay day).month ≤ (Date.ofDay later).month := month_mono h hsame
    omega
  · omega

/-- **Later instants lie in later months**, or in the same. -/
theorem monthIndex_mono {t u : Instant} (h : t ≤ u) : monthIndex t ≤ monthIndex u :=
  Date.index_ofDay_mono (dayOf_mono h)

/-! ### Exact shifts -/

/-- `x` is the nanosecond of the same time of day `months` months away, on the same day of the month
or the last that there is. -/
def ShiftsMonths (months : Int) (t : Instant) (x : Int) : Prop :=
  ∃ d : Date, d.isValid = true ∧ d.index = (dateOf t).index + months ∧
    d.day = min (dateOf t).day (monthLength (isLeap d.year) d.month) ∧
    x = d.toDay * nanosPerDay + timeOf t

/-- Dates of the calendar lie in one month if the numbers of their months agree. -/
theorem Date.of_index_eq {d e : Date} (hd : d.isValid = true) (he : e.isValid = true)
    (h : d.index = e.index) : d.year = e.year ∧ d.month = e.month := by
  have hdmonth := (Date.isValid_iff.1 hd).1
  have hemonth := (Date.isValid_iff.1 he).1
  simp only [Date.index] at h
  omega

/-- Dates of the calendar agree if they have the same day in months of the same number. -/
theorem Date.eq_of_index {d e : Date} (hd : d.isValid = true) (he : e.isValid = true)
    (h : d.index = e.index) (hday : d.day = e.day) : d = e := by
  obtain ⟨hyear, hmonth⟩ := of_index_eq hd he h
  obtain ⟨year, month, day⟩ := d
  obtain ⟨rfl, rfl, rfl⟩ : year = e.year ∧ month = e.month ∧ day = e.day := ⟨hyear, hmonth, hday⟩
  rfl

theorem shiftsMonths_iff {months x : Int} {t : Instant} :
    ShiftsMonths months t x ↔ x = ((dateOf t).addMonths months).toDay * nanosPerDay + timeOf t := by
  obtain ⟨hvalid, hindex, hday⟩ := Date.addMonths_spec (isValid_dateOf t) months
  constructor
  · rintro ⟨d, hd, hmonth, hlast, rfl⟩
    have hagree := hmonth.trans hindex.symm
    obtain ⟨hyear, hsame⟩ := Date.of_index_eq hd hvalid hagree
    rw [hyear, hsame] at hlast
    rw [Date.eq_of_index hd hvalid hagree (hlast.trans hday.symm)]
  · rintro rfl
    exact ⟨_, hvalid, hindex, hday, rfl⟩

/-- An instant that is months away from another has the month, the day and the time of day that it
should have. -/
theorem ShiftsMonths.dateOf_eq {months : Int} {t r : Instant} (h : ShiftsMonths months t r.toInt) :
    dateOf r = (dateOf t).addMonths months ∧ timeOf r = timeOf t := by
  have hplace := shiftsMonths_iff.1 h
  obtain ⟨hday, htime⟩ := dayOf_of_instant? (timeOf_lt t) (Word.ofInt?_eq_some_iff.2 hplace)
  refine ⟨?_, htime⟩
  rw [dateOf, hday]
  exact Date.ofDay_toDay (Date.addMonths_spec (isValid_dateOf t) months).1

theorem ShiftsMonths.monthIndex_eq {months : Int} {t r : Instant}
    (h : ShiftsMonths months t r.toInt) : monthIndex r = monthIndex t + months := by
  rw [Calendar.monthIndex_eq, h.dateOf_eq.1]
  exact (Date.addMonths_spec (isValid_dateOf t) months).2.1

/-- No two instants are so many months apart that the number is no word. -/
theorem ShiftsMonths.bounds {months : Int} {t r : Instant} (h : ShiftsMonths months t r.toInt) :
    -7032 < months ∧ months < 7032 := by
  have hindex := h.monthIndex_eq
  have ht := month_bounds t
  have hr := month_bounds r
  have htyear := year_bounds t
  have hryear := year_bounds r
  simp only [monthIndex] at hindex
  omega

theorem addMonths_iff {t r : Instant} {months : Int64} :
    addMonths t months = some r ↔ ShiftsMonths months.toInt t r.toInt := by
  rw [addMonths, instant?, Word.ofInt?_eq_some_iff, shiftsMonths_iff]

namespace Interval

/-- The nanoseconds of an interval that has a fixed length. -/
def unit? : Interval → Option Int
  | week => some (7 * nanosPerDay)
  | day => some nanosPerDay
  | hour => some nanosPerHour
  | minute => some nanosPerMinute
  | second => some nanosPerSecond
  | _ => none

/-- The months of an interval that goes by the calendar. -/
def months : Interval → Int
  | year => 12
  | quarter => 3
  | _ => 1

/-- `x` is the nanosecond, in unbounded integers, that is `n` intervals away from an instant. -/
def Shifts (i : Interval) (n : Int) (t : Instant) (x : Int) : Prop :=
  match i.unit? with
  | some unit => x = t.toInt + n * unit
  | none => ShiftsMonths (n * i.months) t x

variable {i : Interval} {n : Int64} {a b c t r : Instant}

theorem add_eq (i : Interval) (n : Int64) (t : Instant) :
    i.add n t =
      match i.unit? with
      | some unit => (Word.ofInt? (n.toInt * unit)).bind fun w => Word.ofInt? (t.toInt + w.toInt)
      | none => (Word.ofInt? (n.toInt * i.months)).bind (addMonths t) := by
  cases i <;> rfl

/-- There is one nanosecond that is so many intervals away. -/
theorem existsUnique_shifts (i : Interval) (n : Int) (t : Instant) : ∃! x, i.Shifts n t x := by
  unfold Shifts
  cases i.unit? with
  | some unit => exact existsUnique_eq
  | none =>
      simp only [shiftsMonths_iff]
      exact existsUnique_eq

/-- The distance of `n` intervals is a word; by the calendar there is no distance. -/
def Fits (i : Interval) (n : Int64) : Prop :=
  match i.unit? with
  | some unit => ∃ w : Int64, w.toInt = n.toInt * unit
  | none => True

theorem add_eq_some_iff : i.add n t = some r ↔ i.Shifts n.toInt t r.toInt ∧ i.Fits n := by
  rw [add_eq, Shifts, Fits]
  cases i.unit? with
  | some unit =>
      simp only [Option.bind_eq_some_iff, Word.ofInt?_eq_some_iff]
      constructor
      · rintro ⟨w, hw, hr⟩
        exact ⟨hw ▸ hr, w, hw⟩
      · rintro ⟨hr, w, hw⟩
        exact ⟨w, hw, hw ▸ hr⟩
  | none =>
      simp only [Option.bind_eq_some_iff, Word.ofInt?_eq_some_iff, addMonths_iff, and_true]
      constructor
      · rintro ⟨w, hw, hr⟩
        exact hw ▸ hr
      · intro hr
        have hbounds := hr.bounds
        have hw := Word.toInt_ofInt (x := n.toInt * i.months) (by omega)
        exact ⟨Int64.ofInt (n.toInt * i.months), hw, hw.symm ▸ hr⟩

/-- **An instant is moved to where it belongs**: one nanosecond is so many intervals away, and it is
the result if it is an instant and the distance, for intervals of a fixed length, is a word. -/
theorem add_iff (i : Interval) (n : Int64) (t : Instant) :
    (∃! x, i.Shifts n.toInt t x) ∧
      ∀ r, i.add n t = some r ↔ i.Shifts n.toInt t r.toInt ∧ i.Fits n :=
  ⟨existsUnique_shifts i n.toInt t, fun _ => add_eq_some_iff⟩

/-- **An instant in range may not be reached**: 9300000000 seconds after the start of 1700 lies in
1994, but they are more nanoseconds than a word counts. -/
theorem add_none_in_range :
    Interval.second.add 9300000000 (-8520336000000000000) = none ∧
      Interval.second.Shifts 9300000000 (-8520336000000000000)
        (779664000000000000 : Instant).toInt := by
  refine ⟨by decide, ?_⟩
  show (779664000000000000 : Instant).toInt = _
  decide

/-! ### Measuring -/

/-- The intervals that are added are the intervals that are measured. -/
theorem between_of_shifts (h : i.Shifts n.toInt t r.toInt) : i.between t r = n.toInt := by
  cases i with
  | year =>
      have hindex : monthIndex r = monthIndex t + n.toInt * 12 := ShiftsMonths.monthIndex_eq h
      have ht := month_bounds t
      have hr := month_bounds r
      simp only [monthIndex] at hindex
      simp only [between]
      omega
  | quarter =>
      have hindex : monthIndex r = monthIndex t + n.toInt * 3 := ShiftsMonths.monthIndex_eq h
      simp only [between]
      omega
  | month =>
      have hindex : monthIndex r = monthIndex t + n.toInt * 1 := ShiftsMonths.monthIndex_eq h
      simp only [between]
      omega
  | week =>
      have hday : dayOf r - dayOf t = n.toInt * 7 := by
        change r.toInt = t.toInt + n.toInt * (7 * nanosPerDay) at h
        simp only [dayOf, nanosPerDay, nanosPerHour, nanosPerMinute, nanosPerSecond] at h ⊢
        omega
      rw [between, hday]
      exact Int.mul_tdiv_cancel _ (by decide)
  | day =>
      change r.toInt = t.toInt + n.toInt * nanosPerDay at h
      simp only [between, dayOf, nanosPerDay, nanosPerHour, nanosPerMinute, nanosPerSecond] at h ⊢
      omega
  | hour | minute | second =>
      have hlength : r.toInt - t.toInt = n.toInt * _ := Int.sub_eq_iff_eq_add'.2 h
      rw [between, hlength]
      exact Int.mul_tdiv_cancel _ (by decide)

theorem between_antisymm (i : Interval) (a b : Instant) : i.between a b = -i.between b a := by
  cases i with
  | week => rw [between, between, ← Int.neg_tdiv, Int.neg_sub]
  | hour | minute | second => rw [between, between, ← Int.neg_tdiv, Int.neg_sub]
  | _ => simp only [between]; omega

/-- A later instant is no fewer intervals away. -/
theorem between_mono (i : Interval) (a : Instant) (h : b ≤ c) : i.between a b ≤ i.between a c := by
  have hle := Int64.le_iff_toInt_le.1 h
  have hday := dayOf_mono h
  have hmonth := monthIndex_mono h
  have hyear : (dateOf b).year ≤ (dateOf c).year := yearOfDay_mono hday
  cases i with
  | week => exact Int.tdiv_le_tdiv (by decide) (by omega)
  | hour | minute | second => exact Int.tdiv_le_tdiv (by decide) (by omega)
  | _ => simp only [between]; omega

/-- A quotient is a word if the dividend is that many words. -/
theorem tdiv_bounds {x k : Int} (hk : 0 < k) (hlower : k * -9223372036854775807 ≤ x)
    (hupper : x ≤ k * 9223372036854775807) :
    -9223372036854775808 ≤ x.tdiv k ∧ x.tdiv k ≤ 9223372036854775807 := by
  have hleast := Int.tdiv_le_tdiv hk hlower
  have hmost := Int.tdiv_le_tdiv hk hupper
  rw [Int.mul_tdiv_cancel_left _ hk.ne'] at hleast hmost
  omega

/-- The number of intervals between two instants is a word. -/
theorem toInt_between (i : Interval) (a b : Instant) :
    (Int64.ofInt (i.between a b)).toInt = i.between a b := by
  have ha := Word.toInt_bounds a
  have hb := Word.toInt_bounds b
  have haday := dayOf_bounds a
  have hbday := dayOf_bounds b
  have hclock : ∀ k : Int, 2 < k → -9223372036854775808 ≤ (b.toInt - a.toInt).tdiv k ∧
      (b.toInt - a.toInt).tdiv k ≤ 9223372036854775807 := fun k hk =>
    tdiv_bounds (by omega) (by omega) (by omega)
  apply Word.toInt_ofInt
  cases i with
  | week => exact tdiv_bounds (by decide) (by omega) (by omega)
  | hour | minute | second => exact hclock _ (by decide)
  | day =>
      simp only [between]
      omega
  | _ =>
      have hamonth := month_bounds a
      have hbmonth := month_bounds b
      have hayear := year_bounds a
      have hbyear := year_bounds b
      simp only [between, monthIndex]
      omega

/-- **Measuring undoes moving.**  The intervals that are added are measured between the instants;
the measure changes its sign with the order of the instants, grows with the later one, and is a
word. -/
theorem between_of_add (i : Interval) :
    (∀ n t r, i.add n t = some r → i.between t r = n.toInt) ∧
      (∀ a b, i.between a b = -i.between b a) ∧
      (∀ a b c, b ≤ c → i.between a b ≤ i.between a c) ∧
      ∀ a b, (Int64.ofInt (i.between a b)).toInt = i.between a b :=
  ⟨fun _ _ _ h => between_of_shifts (add_eq_some_iff.1 h).1, i.between_antisymm,
    fun a _ _ h => i.between_mono a h, i.toInt_between⟩

/-- A month behind the last of January 2024 is the last of February, one month later. -/
theorem between_of_shortMonth :
    Interval.month.add 1 1706659200000000000 = some 1709164800000000000 ∧
      Interval.month.between 1706659200000000000 1709164800000000000 = (1 : Int64).toInt ∧
      (1706659200000000000 : Instant) ≤ 1709164800000000000 ∧
      Interval.month.between 0 1706659200000000000 ≤
        Interval.month.between 0 1709164800000000000 := by
  have hadd : Interval.month.add 1 1706659200000000000 = some 1709164800000000000 := by
    decide +kernel
  have hle : (1706659200000000000 : Instant) ≤ 1709164800000000000 := by decide
  exact ⟨hadd, (between_of_add .month).1 _ _ _ hadd, hle, (between_of_add .month).2.2.1 0 _ _ hle⟩

end Interval

end Telemetry.Calendar
