import Telemetry.Calendar.Stamp
import Telemetry.Fault
import Telemetry.Number.Notation
import Telemetry.Text.Search

/-!
# Values

A value is an integer, a double, a text or a date. Functions look at a value
through views, each of which either answers or says what kind it expected. An
operand is a value with the instant to which it belongs; constants carry the
first instant of all, so that they never decide the time of a result.
-/

namespace Telemetry

/-- What expressions compute with. -/
inductive Value where
  | int (i : Int64)
  | float (x : Float)
  | text (s : String)
  | date (t : Instant)

namespace Value

/-- The name of the kind of a value. -/
def kindName : Value → String
  | int _ => "Int"
  | float _ => "Float"
  | text _ => "Text"
  | date _ => "Date"

/-- Whether a value is a text. -/
def isText : Value → Bool
  | text _ => true
  | _ => false

/-- Whether a value is the number zero. -/
def isZero : Value → Bool
  | int i => i == 0
  | date t => t == 0
  | float x => x == 0.0
  | text _ => false

/-- Truth is minus one and falsehood zero. -/
def ofBool (b : Bool) : Value := int (if b then -1 else 0)

/-- The text of a value as characters. -/
def chars : Value → List Char
  | int i => Number.integerText i.toInt
  | float x => Number.valueText x
  | text s => s.toList
  | date t => Calendar.valueText t

/-- The text of a value. -/
def toText (v : Value) : String :=
  match v with
  | text s => s
  | v => String.ofList v.chars

/-- A value as a double; a date counts as its nanoseconds. -/
def toFloat (function : String) : Value → Outcome Float
  | int i => .ok (Number.ofWord i)
  | date t => .ok (Number.ofWord t)
  | float x => .ok x
  | text _ => .error (.typeMismatch function "number" "Text")

/-- A value as an integer; a double is rounded, halves going away from zero. -/
def toWord (function : String) : Value → Outcome Int64
  | int i => .ok i
  | date t => .ok t
  | float x =>
    match Number.nearestWord? x with
    | some w => .ok w
    | none =>
      .error (.typeMismatch function "finite number" (String.ofList (Number.messageText x)))
  | text _ => .error (.typeMismatch function "integer" "Text")

/-- A value as an instant; a number counts nanoseconds. -/
def toInstant (function : String) : Value → Outcome Instant
  | date t => .ok t
  | text _ => .error (.typeMismatch function "date" "Text")
  | v => v.toWord function

/-- A value as a condition; every number but zero is true. -/
def toBool (function : String) : Value → Outcome Bool
  | int i => .ok (i != 0)
  | date t => .ok (t != 0)
  | float x => .ok (x != 0.0)
  | text _ => .error (.typeMismatch function "boolean" "Text")

/-- A value that has to be a text. -/
def asText (function expected : String) : Value → Outcome String
  | text s => .ok s
  | v => .error (.typeMismatch function expected v.kindName)

end Value

/-- Two operands brought to one kind: to text if one is a text, else to doubles if
one is a double, else to integers. -/
inductive Pair where
  | texts (a b : List Char)
  | floats (x y : Float)
  /-- The flags tell which of the two is a date. -/
  | words (a b : Int64) (dateLeft dateRight : Bool)

/-- The integer that an integer or a date holds. -/
def Value.word? : Value → Option (Int64 × Bool)
  | .int i => some (i, false)
  | .date t => some (t, true)
  | _ => none

/-- The number that a value other than a text holds. -/
def Value.number : Value → Float
  | .int i => Number.ofWord i
  | .date t => Number.ofWord t
  | .float x => x
  | .text _ => 0.0 / 0.0

/-- The pair of two operands. -/
def Pair.of (a b : Value) : Pair :=
  if a.isText || b.isText then .texts a.chars b.chars
  else
    match a.word?, b.word? with
    | some (i, dateLeft), some (j, dateRight) => .words i j dateLeft dateRight
    | _, _ => .floats a.number b.number

/-- The order of two doubles, which count as equal if they agree to seven digits;
none if one is NaN. -/
def compareDoubles (a b : Float) : Option Ordering :=
  if a.isNaN || b.isNaN then none
  else if a == b then some .eq
  else if a.isFinite && b.isFinite && (a - b).abs ≤ 1e-7 * Number.greater a.abs b.abs then some .eq
  else if a < b then some .lt
  else some .gt

/-- The order of two words. -/
def compareWords (a b : Int64) : Ordering :=
  if a < b then .lt else if b < a then .gt else .eq

/-- The order of two values, brought to one kind. -/
def Value.compare (a b : Value) : Option Ordering :=
  match Pair.of a b with
  | .texts s t => some (Text.order s t)
  | .floats x y => compareDoubles x y
  | .words i j _ _ => some (compareWords i j)

/-- A value and the instant to which it belongs. -/
structure Timed where
  value : Value
  time : Instant

/-- The time of constants. -/
def constantTime : Instant := Int64.minValue

/-- A value that belongs to no instant. -/
def Timed.constant (v : Value) : Timed := ⟨v, constantTime⟩

/-- The later of two instants. -/
def later (a b : Instant) : Instant := if a < b then b else a

/-- The latest time among operands. -/
def newest (operands : List Timed) : Instant :=
  operands.foldl (fun t operand => later t operand.time) constantTime

theorem constantTime_le (t : Instant) : constantTime ≤ t := Int64.minValue_le t

theorem later_of_le {a b : Instant} (h : a ≤ b) : later a b = b := by
  rw [later]
  split
  · rfl
  · next hnot => exact Int64.le_antisymm h (Int64.not_lt.1 hnot)

theorem later_of_ge {a b : Instant} (h : b ≤ a) : later a b = a := by
  rw [later, if_neg (Int64.not_lt.2 h)]

theorem newest_singleton (x : Timed) : newest [x] = x.time := later_of_le (constantTime_le _)

example : newest [⟨.int 1, 10⟩, ⟨.int 2, 30⟩, .constant (.int 3)] = 30 := by decide +kernel

end Telemetry
