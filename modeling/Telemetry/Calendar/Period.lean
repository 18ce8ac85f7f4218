import Telemetry.Calendar.Instant

/-!
# Calendar periods

The five units whose boundaries can end a running statistic. Two instants belong
to one period of a unit when their keys agree.
-/

namespace Telemetry.Calendar

/-- A unit of the calendar. -/
inductive Period where
  | hour
  | day
  | week
  | month
  | year
  deriving DecidableEq

/-- The numbers that name the period of a unit in which an instant lies. -/
def Period.key (t : Instant) : Period → List Int
  | .hour => [dayOf t, hourOf t]
  | .day => [dayOf t]
  | .week => let w := IsoWeek.ofDay (dayOf t); [w.year, w.week]
  | .month => let d := dateOf t; [d.year, d.month]
  | .year => [(dateOf t).year]

/-- Whether two instants lie in one period. -/
def Period.shares (u : Period) (a b : Instant) : Bool := u.key a == u.key b

end Telemetry.Calendar
