import Telemetry.Word
import Telemetry.Calendar.Civil

/-!
# Instants

An instant is a word that counts nanoseconds from the start of 1970, without
leap seconds and in one time zone. It splits into a day number and the
nanoseconds of that day, and from these come its calendar components.
-/

namespace Telemetry

/-- Nanoseconds since the start of 1970. -/
abbrev Instant := Int64

end Telemetry

namespace Telemetry.Calendar

/-- The nanoseconds of a second. -/
def nanosPerSecond : Int := 1000000000
/-- The nanoseconds of a minute. -/
def nanosPerMinute : Int := 60 * nanosPerSecond
/-- The nanoseconds of an hour. -/
def nanosPerHour : Int := 60 * nanosPerMinute
/-- The nanoseconds of a day. -/
def nanosPerDay : Int := 24 * nanosPerHour

/-- The number of the day that an instant falls on. -/
def dayOf (t : Instant) : Int := t.toInt / nanosPerDay

/-- The nanoseconds between the start of the day and an instant. -/
def timeOf (t : Instant) : Nat := (t.toInt % nanosPerDay).toNat

/-- The date that an instant falls on. -/
def dateOf (t : Instant) : Date := Date.ofDay (dayOf t)

/-- The hours of the day that have passed. -/
def hourOf (t : Instant) : Nat := timeOf t / 3600000000000
/-- The minutes of the hour that have passed. -/
def minuteOf (t : Instant) : Nat := timeOf t / 60000000000 % 60
/-- The seconds of the minute that have passed. -/
def secondOf (t : Instant) : Nat := timeOf t / 1000000000 % 60

/-- The nanoseconds between the start of the second and an instant. -/
def nanoOf (t : Instant) : Nat := timeOf t % 1000000000

/-- The instant on a day, the nanoseconds counted from its start. -/
def instant? (day : Int) (nanos : Int) : Option Instant :=
  Word.ofInt? (day * nanosPerDay + nanos)

/-- The greatest multiple of the resolution that is not later than the instant,
or the first instant if the multiple lies before it. A resolution of one or less
changes nothing. -/
def floorTo (t : Instant) (resolution : Int64) : Instant :=
  if resolution.toInt ≤ 1 then t
  else (Word.ofInt? (t.toInt - t.toInt % resolution.toInt)).getD Int64.minValue

/-- The numbers that a date and time consist of. -/
inductive Component where
  | year
  | month
  | day
  | hour
  | minute
  | second
  /-- One for Sunday to seven for Saturday. -/
  | weekday
  /-- Counted from one. -/
  | dayOfYear
  deriving DecidableEq

/-- A component of an instant. -/
def Component.of (t : Instant) : Component → Int
  | .year => (dateOf t).year
  | .month => (dateOf t).month
  | .day => (dateOf t).day
  | .hour => hourOf t
  | .minute => minuteOf t
  | .second => secondOf t
  | .weekday => (Calendar.weekday (dayOf t) + 1) % 7 + 1
  | .dayOfYear => Calendar.dayOfYear (dayOf t) + 1

/-- A day and the time on it make up the instant. -/
theorem instant?_dayOf_timeOf (t : Instant) : instant? (dayOf t) (timeOf t) = some t := by
  have h : dayOf t * nanosPerDay + (timeOf t : Int) = t.toInt := by
    simp only [dayOf, timeOf, nanosPerDay, nanosPerHour, nanosPerMinute, nanosPerSecond]
    omega
  rw [instant?, h, Word.ofInt?_toInt]

/-- The multiple at an instant as an integer, which the start of the range cuts off. -/
theorem toInt_floorTo (t : Instant) (resolution : Int64) :
    (floorTo t resolution).toInt =
      if resolution.toInt ≤ 1 then t.toInt
      else max (-9223372036854775808) (t.toInt - t.toInt % resolution.toInt) := by
  rw [floorTo]
  split
  · rfl
  · have hbounds := Word.toInt_bounds t
    have hnonneg : 0 ≤ t.toInt % resolution.toInt := Int.emod_nonneg _ (by omega)
    cases h : Word.ofInt? (t.toInt - t.toInt % resolution.toInt) with
    | some w =>
        have hw := Word.ofInt?_eq_some_iff.1 h
        have hlow := (Word.toInt_bounds w).1
        rw [Option.getD_some]
        omega
    | none =>
        have hout := Word.ofInt?_eq_none_iff.1 h
        rw [Option.getD_none, Int64.toInt_minValue]
        omega

/-- A later instant has no earlier multiple. -/
theorem floorTo_mono {t u : Instant} (h : t ≤ u) (resolution : Int64) :
    floorTo t resolution ≤ floorTo u resolution := by
  rw [Int64.le_iff_toInt_le] at h ⊢
  rw [toInt_floorTo, toInt_floorTo]
  split
  · exact h
  · have hpos : 0 < resolution.toInt := by omega
    have hmultiple : ∀ x : Int,
        x - x % resolution.toInt = resolution.toInt * (x / resolution.toInt) := by
      intro x
      have hsplit := Int.mul_ediv_add_emod x resolution.toInt
      omega
    have hquotient : t.toInt / resolution.toInt ≤ u.toInt / resolution.toInt :=
      Int.ediv_le_ediv hpos h
    have hscaled := Int.mul_le_mul_of_nonneg_left hquotient (Int.le_of_lt hpos)
    rw [hmultiple, hmultiple]
    omega

example : floorTo (-1) 1000000000 = -1000000000 := by decide +kernel

example : floorTo Int64.minValue 1000000000 = Int64.minValue := by decide +kernel

end Telemetry.Calendar
