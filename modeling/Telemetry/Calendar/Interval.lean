import Telemetry.Calendar.Instant
import Telemetry.Number.Real
import Telemetry.Text.Blank

/-!
# Intervals

Moving an instant by a number of intervals, and counting the intervals between
two instants. Years, quarters and months go by the calendar and keep the time of
day; the other intervals have a fixed length. Every step that leaves the range
of instants fails, also where a later step would come back into it.
-/

namespace Telemetry.Calendar

/-- What dates are moved and measured by. -/
inductive Interval where
  | year
  | quarter
  | month
  | week
  | day
  | hour
  | minute
  | second
  deriving DecidableEq

/-- The interval that a code names, in either case and between blanks. -/
def Interval.ofCode? (code : List Char) : Option Interval :=
  let name := String.ofList ((Text.trim code).map Char.toLower)
  if name = "yyyy" then some .year
  else if name = "q" then some .quarter
  else if name = "m" then some .month
  else if name = "ww" ∨ name = "w" then some .week
  else if name = "d" ∨ name = "y" then some .day
  else if name = "h" then some .hour
  else if name = "n" then some .minute
  else if name = "s" then some .second
  else none

/-- An interval is so many months, or so many nanoseconds. -/
inductive Length where
  | months (count : Int64)
  | nanos (count : Int64)

/-- The length of an interval. -/
def Interval.length : Interval → Length
  | .year => .months 12
  | .quarter => .months 3
  | .month => .months 1
  | .week => .nanos 604800000000000
  | .day => .nanos 86400000000000
  | .hour => .nanos 3600000000000
  | .minute => .nanos 60000000000
  | .second => .nanos 1000000000

/-- The instant `months` months away, at the same time of day. -/
def addMonths (t : Instant) (months : Int64) : Option Instant :=
  instant? ((dateOf t).addMonths months.toInt).toDay (timeOf t)

/-- The instant `n` intervals away. -/
def Interval.add (i : Interval) (n : Int64) (t : Instant) : Option Instant :=
  match i.length with
  | .months per => (Word.mul? n per).bind (addMonths t)
  | .nanos per => (Word.mul? n per).bind (Word.add? t)

/-- The months from year zero to an instant. -/
def monthIndex (t : Instant) : Int :=
  let d := dateOf t
  d.year * 12 + (d.month - 1 : Int)

/-- The intervals from `a` to `b`. Years, quarters, months and days count the
boundaries in between, the others what has elapsed in full. -/
def Interval.between (i : Interval) (a b : Instant) : Int :=
  match i with
  | .year => (dateOf b).year - (dateOf a).year
  | .quarter => monthIndex b / 3 - monthIndex a / 3
  | .month => monthIndex b - monthIndex a
  | .day => dayOf b - dayOf a
  | .week => (dayOf b - dayOf a).tdiv 7
  | .hour => (b.toInt - a.toInt).tdiv nanosPerHour
  | .minute => (b.toInt - a.toInt).tdiv nanosPerMinute
  | .second => (b.toInt - a.toInt).tdiv nanosPerSecond

/-- The start of the day with the given year, month and day, of which the last two
may lie outside the calendar and carry over. -/
def serialDate (year month day : Int64) : Option Instant := do
  let base ← instant? (yearStart year.toInt) 0
  let shifted ← Interval.month.add (← Word.sub? month 1) base
  Word.add? shifted (← Word.mul? (← Word.sub? day 1) 86400000000000)

/-- A time of day on the first day of 1970. -/
def serialTime (hour minute second : Int64) : Option Instant := do
  let hours ← Word.mul? hour 3600000000000
  let minutes ← Word.mul? minute 60000000000
  let seconds ← Word.mul? second 1000000000
  Word.add? (← Word.add? hours minutes) seconds

/-- The nanoseconds in `count` units, halves going away from zero. -/
def span? (count : Float) (unit : Int64) : Option Int64 :=
  let nanos := count * Number.ofWord unit
  if nanos.isFinite && (Number.nearestInt nanos).natAbs < Word.halfCount then
    some (Int64.ofInt (Number.nearestInt nanos))
  else none

end Telemetry.Calendar
