import Mathlib.Data.Int.Order.Basic
import Mathlib.Data.List.Lex
import Telemetry.Calendar.Period
import Telemetry.Proofs.Library

/-!
# Periods follow each other

Time runs through the periods of a unit one after the other: the numbers that name the period of an
instant never go back, in the order of the first number in which they differ
(`Calendar.Period.key_mono`).  So the instants of one period stand together, and whatever lies
between two of them lies in that period too (`Calendar.Period.shares_between`).

The day numbers and the years that they fall into carry the proof; the months of a year and the
weeks of the year of their Thursday are counted inside it.
-/

namespace Telemetry.Calendar

/-! ### Days -/

theorem dayOf_mono {t u : Instant} (h : t ≤ u) : dayOf t ≤ dayOf u := by
  have hle := Int64.le_iff_toInt_le.1 h
  have hday : (0 : Int) < nanosPerDay := by decide
  exact Int.ediv_le_ediv hday hle

/-- On one day the later instant has no earlier hour. -/
theorem hourOf_mono {t u : Instant} (h : t ≤ u) (hday : dayOf t = dayOf u) :
    hourOf t ≤ hourOf u := by
  have hle := Int64.le_iff_toInt_le.1 h
  have htime : timeOf t ≤ timeOf u := by
    simp only [dayOf, timeOf, nanosPerDay, nanosPerHour, nanosPerMinute, nanosPerSecond] at hday ⊢
    omega
  exact Nat.div_le_div_right htime

/-! ### Years -/

theorem yearStart_mono {y z : Int} (h : y ≤ z) : yearStart y ≤ yearStart z := by
  simp only [yearStart]
  omega

theorem yearOfDay_mono {d e : Int} (h : d ≤ e) : yearOfDay d ≤ yearOfDay e := by
  obtain ⟨hd, -⟩ := yearStart_yearOfDay d
  obtain ⟨-, he⟩ := yearStart_yearOfDay e
  refine Int.not_lt.1 fun hlt => ?_
  -- otherwise the year of `d` begins only after `e`
  have hstart : yearStart (yearOfDay e + 1) ≤ yearStart (yearOfDay d) := yearStart_mono (by omega)
  omega

/-- In one year the later day has no fewer days in front of it. -/
theorem dayOfYear_mono {d e : Int} (h : d ≤ e) (hyear : yearOfDay d = yearOfDay e) :
    dayOfYear d ≤ dayOfYear e := by
  simp only [dayOfYear, hyear]
  omega

/-! ### Months and weeks -/

/-- In one year the later day has no earlier month. -/
theorem month_mono {d e : Int} (h : d ≤ e) (hyear : yearOfDay d = yearOfDay e) :
    (Date.ofDay d).month ≤ (Date.ofDay e).month := by
  have hrest := dayOfYear_mono h hyear
  show ((monthStarts (isLeap (yearOfDay d))).takeWhile (· ≤ dayOfYear d)).length ≤
    ((monthStarts (isLeap (yearOfDay e))).takeWhile (· ≤ dayOfYear e)).length
  rw [hyear]
  refine length_takeWhile_le (fun start hstart => ?_) _
  have hbefore := of_decide_eq_true hstart
  exact decide_eq_true (by omega)

/-- The Thursday of a week, which decides the year that the week belongs to. -/
def thursdayOf (day : Int) : Int := day - weekday day + 3

theorem thursdayOf_mono {d e : Int} (h : d ≤ e) : thursdayOf d ≤ thursdayOf e := by
  simp only [thursdayOf, weekday]
  omega

/-! ### Keys -/

theorem singleton_le_singleton {a b : Int} (h : a ≤ b) : [a] ≤ [b] := by
  rcases Int.lt_or_eq_of_le h with h | rfl
  · exact le_of_lt (List.Lex.rel h)
  · exact le_refl [a]

/-- Pairs of numbers in the order of the first in which they differ. -/
theorem pair_le_pair {a b c d : Int} (h : a < c ∨ a = c ∧ b ≤ d) : [a, b] ≤ [c, d] := by
  rcases h with h | ⟨rfl, h⟩
  · exact le_of_lt (List.Lex.rel h)
  · exact List.cons_le_cons a (singleton_le_singleton h)

namespace Period

variable {u : Period} {s t v : Instant}

/-- **Later instants lie in later periods**, or in the same. -/
theorem key_mono (h : s ≤ t) (u : Period) : u.key s ≤ u.key t := by
  have hday := dayOf_mono h
  have hyear := yearOfDay_mono hday
  cases u with
  | hour =>
      refine pair_le_pair ?_
      by_cases hsame : dayOf s = dayOf t
      · have hhour := hourOf_mono h hsame
        exact Or.inr ⟨hsame, by omega⟩
      · exact Or.inl (by omega)
  | day => exact singleton_le_singleton hday
  | week =>
      have hthursday := thursdayOf_mono hday
      have hweekYear := yearOfDay_mono hthursday
      refine pair_le_pair ?_
      show yearOfDay (thursdayOf (dayOf s)) < yearOfDay (thursdayOf (dayOf t)) ∨
        yearOfDay (thursdayOf (dayOf s)) = yearOfDay (thursdayOf (dayOf t)) ∧
          ((dayOfYear (thursdayOf (dayOf s)) / 7 + 1 : Nat) : Int) ≤
            (dayOfYear (thursdayOf (dayOf t)) / 7 + 1 : Nat)
      by_cases hsame : yearOfDay (thursdayOf (dayOf s)) = yearOfDay (thursdayOf (dayOf t))
      · have hrest := dayOfYear_mono hthursday hsame
        exact Or.inr ⟨hsame, by omega⟩
      · exact Or.inl (by omega)
  | month =>
      refine pair_le_pair ?_
      show yearOfDay (dayOf s) < yearOfDay (dayOf t) ∨
        yearOfDay (dayOf s) = yearOfDay (dayOf t) ∧
          ((Date.ofDay (dayOf s)).month : Int) ≤ (Date.ofDay (dayOf t)).month
      by_cases hsame : yearOfDay (dayOf s) = yearOfDay (dayOf t)
      · have hmonth := month_mono hday hsame
        exact Or.inr ⟨hsame, by omega⟩
      · exact Or.inl (by omega)
  | year => exact singleton_le_singleton hyear

theorem shares_iff : u.shares s t = true ↔ u.key s = u.key t := beq_iff_eq

theorem shares_refl (u : Period) (t : Instant) : u.shares t t = true := shares_iff.2 rfl

theorem shares_symm (h : u.shares s t = true) : u.shares t s = true :=
  shares_iff.2 (shares_iff.1 h).symm

theorem shares_trans (hst : u.shares s t = true) (htv : u.shares t v = true) :
    u.shares s v = true :=
  shares_iff.2 ((shares_iff.1 hst).trans (shares_iff.1 htv))

/-- **Periods have no gaps**: what lies between two instants of one lies in it. -/
theorem shares_between (hst : s ≤ t) (htv : t ≤ v) (h : u.shares s v = true) :
    u.shares t v = true := by
  rw [shares_iff] at h ⊢
  have hlower := key_mono hst u
  rw [h] at hlower
  exact le_antisymm (key_mono htv u) hlower

end Period

end Telemetry.Calendar
