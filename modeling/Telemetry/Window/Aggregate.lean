import Telemetry.Value
import Telemetry.Window.Retention

/-!
# Windowed statistics

A windowed statistic is a way of retention, a statistic and a history of its own.
It takes a sample and a control operand: a number of samples, a range of time, a
code for a calendar unit, or a flag. The control is understood before the history
is touched.
-/

namespace Telemetry

/-- What the control operand of a windowed statistic means. -/
inductive Policy where
  | count
  | age
  | period
  | flag
  deriving DecidableEq

/-- The front of the names of a policy. -/
def Policy.label : Policy → String
  | count => "Running"
  | age => "Time"
  | period => "Reset"
  | flag => "FlagReset"

/-- The boundary of age windows, which depends on the statistic. -/
def Statistic.boundary : Statistic → Boundary
  | average | total | median => .exclusive
  | maximum | minimum | deviation => .inclusive

/-- The calendar unit of a code; zero is none. -/
def periodOfMode (function : String) (code : Int64) : Outcome (Option Calendar.Period) :=
  if code = 0 then .ok none
  else if code = 1 then .ok (some .hour)
  else if code = 2 then .ok (some .day)
  else if code = 3 then .ok (some .week)
  else if code = 4 then .ok (some .month)
  else if code = 5 then .ok (some .year)
  else
    .error (.typeMismatch function "reset mode 0-5" (String.ofList (Number.integerText code.toInt)))

/-- The windowed statistics that there are. -/
def windowedStatistics : List (Policy × Statistic) :=
  [(.count, .average), (.count, .maximum), (.count, .minimum), (.count, .median),
   (.count, .total), (.count, .deviation), (.age, .average), (.age, .maximum), (.age, .minimum),
   (.age, .median), (.age, .total), (.age, .deviation), (.period, .average), (.period, .maximum),
   (.period, .minimum), (.period, .total), (.period, .deviation), (.flag, .average),
   (.flag, .maximum), (.flag, .minimum), (.flag, .total), (.flag, .deviation)]

/-- A statistic over a history of its own. -/
structure Aggregate where
  policy : Policy
  statistic : Statistic
  history : History

namespace Aggregate

/-- The name of a windowed statistic. -/
def name (a : Aggregate) : String := a.policy.label ++ a.statistic.name

/-- The history after a sample under a control operand. -/
def retain (a : Aggregate) (s : Sample) (control : Value) : Outcome History :=
  match a.policy with
  | .count => do return a.history.slideCount s (← control.toWord a.name)
  | .age => do return a.history.slideAge a.statistic.boundary s (← control.toWord a.name)
  | .period => do
    let code ← control.toWord a.name
    return a.history.resetPeriod s (← periodOfMode a.name code)
  | .flag => do return a.history.resetFlag s (← control.toBool a.name)

/-- The result on a sample and a control operand, and the statistic after it. -/
def apply (a : Aggregate) (value control : Timed) : Outcome (Timed × Aggregate) := do
  let x ← value.value.toFloat a.name
  let h ← a.retain ⟨value.time, x⟩ control.value
  return (⟨.float (h.evaluate a.statistic), newest [value, control]⟩, { a with history := h })

end Aggregate

end Telemetry
