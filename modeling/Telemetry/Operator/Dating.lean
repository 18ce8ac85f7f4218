import Telemetry.Calendar.Interval
import Telemetry.Operator.Rule

/-!
# Date functions

Components of dates, intervals, dates made from numbers, formatted dates and
spans of time. An integer is taken for a date wherever a date is expected.
-/

namespace Telemetry

/-- The date functions. -/
inductive Dating where
  | part (component : Calendar.Component)
  | add
  | between
  | serialDate
  | serialTime
  | format
  | timeStamp
  | seconds
  | minutes
  | hours
  | days
  deriving DecidableEq

namespace Dating

open Calendar

/-- Every date function. -/
def all : List Dating :=
  [part .year, part .month, part .day, part .hour, part .minute, part .second, part .weekday,
   part .dayOfYear, add, between, serialDate, serialTime, format, timeStamp, seconds, minutes,
   hours, days]

/-- The list misses no function. -/
theorem mem_all (op : Dating) : op ∈ all := by
  cases op with
  | part component => cases component <;> decide
  | _ => decide

/-- The name of a function. -/
def name : Dating → String
  | part .year => "Year"
  | part .month => "Month"
  | part .day => "Day"
  | part .hour => "Hour"
  | part .minute => "Minute"
  | part .second => "Second"
  | part .weekday => "Weekday"
  | part .dayOfYear => "DayOfYear"
  | add => "DateAdd"
  | between => "DateDiff"
  | serialDate => "DateSerial"
  | serialTime => "TimeSerial"
  | format => "FormatDate"
  | timeStamp => "TimeStamp"
  | seconds => "Seconds"
  | minutes => "Minutes"
  | hours => "Hours"
  | days => "Days"

/-- The number of operands that a function declares. -/
def arity : Dating → Nat
  | add | between | serialDate | serialTime => 3
  | format => 2
  | _ => 1

/-- The interval that an operand names. -/
def interval (function : String) (code : Value) : Outcome Interval := do
  let s ← code.asText function "interval code"
  match Interval.ofCode? s.toList with
  | some i => return i
  | none => throw (.typeMismatch function "interval code" s)

/-- A result that may lie out of range. -/
def inRange (function expected found : String) (t : Option Instant) : Outcome Value :=
  match t with
  | some t => .ok (.date t)
  | none => .error (.typeMismatch function expected found)

/-- A date made from three numbers. -/
def serial (function expected found : String) (f : Int64 → Int64 → Int64 → Option Instant) :
    Rule :=
  .three fun a b c => do
    let a ← a.toWord function
    let b ← b.toWord function
    let c ← c.toWord function
    inRange function expected found (f a b c)

/-- A number of units as nanoseconds. -/
def spanOf (function : String) (unit : Int64) : Rule :=
  .one fun count => do
    match span? (← count.toFloat function) unit with
    | some n => return .int n
    | none => throw (.typeMismatch function "span in range" count.toText)

/-- The rule of a function. -/
def rule (op : Dating) : Rule :=
  let function := op.name
  match op with
  | part component => .one fun d => (d.toInstant function).map fun t => .int (.ofInt (component.of t))
  | add =>
    .three fun code n d => do
      let i ← interval function code
      let n ← n.toWord function
      let t ← d.toInstant function
      inRange function "date in range" "overflow" (i.add n t)
  | between =>
    .three fun code a b => do
      let i ← interval function code
      let a ← a.toInstant function
      let b ← b.toInstant function
      return .int (.ofInt (i.between a b))
  | serialDate => serial function "valid calendar date" "out of range" Calendar.serialDate
  | serialTime => serial function "time in range" "overflow" Calendar.serialTime
  | format =>
    .two fun d pattern => do
      let p ← pattern.asText function "format pattern"
      let t ← d.toInstant function
      match format? t p.toList with
      | some cs => return .text (String.ofList cs)
      | none => throw (.typeMismatch function "strftime pattern" p)
  | timeStamp => .ofTime .date
  | seconds => spanOf function 1000000000
  | minutes => spanOf function 60000000000
  | hours => spanOf function 3600000000000
  | days => spanOf function 86400000000000

/-- A function takes as many operands as it declares. -/
theorem takes_rule (op : Dating) : op.rule.takes = op.arity := by cases op <;> rfl

end Dating

end Telemetry
