import Telemetry.Literal
import Telemetry.Operator.Rule

/-!
# Conversion and choice

Conversion between the kinds of values, the questions whether a number is NaN or
finite, and the choice between two values by a condition.
-/

namespace Telemetry

/-- The conversions. -/
inductive Conversion where
  | toInteger
  | toDouble
  | toText
  | toDate
  | leadingNumber
  | isNaN
  | isFinite
  | choose
  deriving DecidableEq

namespace Conversion

/-- Every conversion. -/
def all : List Conversion :=
  [toInteger, toDouble, toText, toDate, leadingNumber, isNaN, isFinite, choose]

/-- The list misses no conversion. -/
theorem mem_all (op : Conversion) : op ∈ all := by cases op <;> decide

/-- The name of a conversion. -/
def name : Conversion → String
  | toInteger => "CInt"
  | toDouble => "CDbl"
  | toText => "CStr"
  | toDate => "CDate"
  | leadingNumber => "Val"
  | isNaN => "IsNaN"
  | isFinite => "IsFinite"
  | choose => "If"

/-- The number of operands that a conversion declares. -/
def arity : Conversion → Nat
  | choose => 3
  | _ => 1

/-- The double that a text is, between blanks. -/
def readFloat (function s : String) : Outcome Float :=
  match Number.float? (Text.trim s.toList) with
  | some x => .ok x
  | none => .error (.typeMismatch function "numeric text" s)

/-- The integer of a value; a text is read as a double and rounded. -/
def integer (function : String) : Value → Outcome Value
  | .text s => do
    match Number.nearestWord? (← readFloat function s) with
    | some i => return .int i
    | none => throw (.typeMismatch function "finite number" s)
  | v => (v.toWord function).map .int

/-- The double of a value. -/
def double (function : String) : Value → Outcome Value
  | .text s => (readFloat function s).map .float
  | v => (v.toFloat function).map .float

/-- The date of a value. -/
def date (function : String) : Value → Outcome Value
  | .text s =>
    match Calendar.parse? s.toList with
    | some t => .ok (.date t)
    | none => .error (.typeMismatch function "date text" s)
  | v => (v.toInstant function).map .date

/-- The number at the front of a text, behind blanks; zero if there is none. An
integer out of range becomes a double. -/
def leading (s : List Char) : Value :=
  match Number.prefix? Text.isDecimal (Text.trimStart s) with
  | none => .int 0
  | some (number, _) =>
    let whole :=
      if number.any fun c => c = '.' ∨ c = 'e' ∨ c = 'E' then none
      else (Number.readWord number).toOption
    match whole, Number.float? number with
    | some i, _ => .int i
    | none, some x => .float x
    | none, none => .int 0

/-- The rule of a conversion. -/
def rule (op : Conversion) : Rule :=
  let function := op.name
  match op with
  | toInteger => .one (integer function)
  | toDouble => .one (double function)
  | toText => .one fun a => .ok (.text a.toText)
  | toDate => .one (date function)
  | leadingNumber =>
    .one fun a =>
      match a with
      | .text s => .ok (leading s.toList)
      | v => .ok v
  | isNaN => .one fun a => (a.toFloat function).map fun x => .ofBool x.isNaN
  | isFinite => .one fun a => (a.toFloat function).map fun x => .ofBool x.isFinite
  | choose =>
    .three fun condition yes no =>
      (condition.toBool function).map fun b => if b then yes else no

/-- A conversion takes as many operands as it declares. -/
theorem takes_rule (op : Conversion) : op.rule.takes = op.arity := by cases op <;> rfl

end Conversion

end Telemetry
