import Telemetry.Cursor
import Telemetry.Value

/-!
# Directives

Functions that address the record cursor of the host. They take their operands,
give a command and leave no result.
-/

namespace Telemetry

/-- The directives. -/
inductive Directive where
  | startAtRecord
  | startAtTime
  | startAtNewest
  | startAfterNewest
  | startRelativeToNewest
  | startAtOffsetFromNewest
  | orderOption
  | reportOffset
  deriving DecidableEq

namespace Directive

/-- Every directive. -/
def all : List Directive :=
  [startAtRecord, startAtTime, startAtNewest, startAfterNewest, startRelativeToNewest,
   startAtOffsetFromNewest, orderOption, reportOffset]

/-- The list misses no directive. -/
theorem mem_all (d : Directive) : d ∈ all := by cases d <;> decide

/-- The name of a directive. -/
def name : Directive → String
  | startAtRecord => "StartAtRecord"
  | startAtTime => "StartAtTime"
  | startAtNewest => "StartAtNewest"
  | startAfterNewest => "StartAfterNewest"
  | startRelativeToNewest => "StartRelativeToNewest"
  | startAtOffsetFromNewest => "StartAtOffsetFromNewest"
  | orderOption => "OrderOption"
  | reportOffset => "ReportOffset"

/-- The number of operands that a directive declares. -/
def arity : Directive → Nat
  | startAtRecord => 2
  | startAtNewest | startAfterNewest => 0
  | _ => 1

/-- How a directive makes its command out of operands, oldest first. -/
inductive Form where
  | plain (command : Command)
  | one (f : Value → Outcome Command)
  | two (f : Value → Value → Outcome Command)

/-- The number of operands that a form takes. -/
def Form.takes : Form → Nat
  | plain _ => 0
  | one _ => 1
  | two _ => 2

/-- An operand that has to be an integer, or a double without a fraction. -/
def integral (function : String) (v : Value) : Outcome Int64 :=
  match v with
  | .int i => .ok i
  | .float x =>
    if Number.isIntegral x then v.toWord function
    else .error (.typeMismatch function "integer" v.toText)
  | v => .error (.typeMismatch function "integer" v.toText)

/-- A directive with one integer. -/
def withInteger (function : String) (f : Int64 → Command) : Form :=
  .one fun a => (integral function a).map f

/-- The form of a directive. -/
def form (d : Directive) : Form :=
  let function := d.name
  match d with
  | startAtRecord =>
    .two fun record year => do
      let record ← integral function record
      let year ← integral function year
      return .start (.atRecord record year)
  | startAtTime =>
    .one fun a =>
      match a with
      | .date t => .ok (.start (.atTime t))
      | v => .error (.typeMismatch function "Date" v.kindName)
  | startAtNewest => .plain (.start .atNewest)
  | startAfterNewest => .plain (.start .afterNewest)
  | startRelativeToNewest => withInteger function fun n => .start (.relativeToNewest n)
  | startAtOffsetFromNewest => withInteger function fun n => .start (.atOffsetFromNewest n)
  | orderOption => withInteger function .order
  | reportOffset => withInteger function .reportOffset

/-- The command on operands given oldest first. -/
def Form.apply (function : String) (form : Form) (operands : List Timed) : Outcome Command :=
  match form, operands with
  | plain command, [] => .ok command
  | one f, [a] => f a.value
  | two f, [a, b] => f a.value b.value
  | form, operands => .error (.stackUnderflow function form.takes operands.length)

/-- A directive takes as many operands as it declares. -/
theorem takes_form (d : Directive) : d.form.takes = d.arity := by cases d <;> rfl

end Directive

end Telemetry
