import Telemetry.Operator.Rule

/-!
# Comparison and bits

A comparison asks about the operand pushed later against the one pushed earlier,
and answers with a truth value. The bit operators work on all 64 bits of an
integer, so that they also combine truth values.
-/

namespace Telemetry

/-- The comparisons. -/
inductive Comparison where
  | equal
  | notEqual
  | less
  | greater
  | lessOrEqual
  | greaterOrEqual
  deriving DecidableEq

namespace Comparison

/-- Every comparison. -/
def all : List Comparison := [equal, notEqual, less, greater, lessOrEqual, greaterOrEqual]

/-- The list misses no comparison. -/
theorem mem_all (op : Comparison) : op ∈ all := by cases op <;> decide

/-- The name of a comparison. -/
def name : Comparison → String
  | equal => "IsEqual"
  | notEqual => "IsNotEqual"
  | less => "IsLess"
  | greater => "IsGreater"
  | lessOrEqual => "IsLessOrEqual"
  | greaterOrEqual => "IsGreaterOrEqual"

/-- The symbol of a comparison. -/
def symbol : Comparison → String
  | equal => "="
  | notEqual => "<>"
  | less => "<"
  | greater => ">"
  | lessOrEqual => "<="
  | greaterOrEqual => ">="

/-- The number of operands that a comparison declares. -/
def arity (_ : Comparison) : Nat := 2

/-- Whether a comparison holds of an order; without an order only inequality
does. -/
def holds (op : Comparison) : Option Ordering → Bool
  | none => op = notEqual
  | some o =>
    match op with
    | equal => o = .eq
    | notEqual => o ≠ .eq
    | less => o = .lt
    | greater => o = .gt
    | lessOrEqual => o ≠ .gt
    | greaterOrEqual => o ≠ .lt

/-- The rule of a comparison. -/
def rule (op : Comparison) : Rule :=
  .two fun earlier later => .ok (.ofBool (op.holds (later.compare earlier)))

/-- A comparison takes as many operands as it declares. -/
theorem takes_rule (op : Comparison) : op.rule.takes = op.arity := rfl

end Comparison

/-- The bit operators. -/
inductive Bitwise where
  | and
  | or
  | xor
  | not
  deriving DecidableEq

namespace Bitwise

/-- Every bit operator. -/
def all : List Bitwise := [and, or, xor, not]

/-- The list misses no bit operator. -/
theorem mem_all (op : Bitwise) : op ∈ all := by cases op <;> decide

/-- The name of a bit operator. -/
def name : Bitwise → String
  | and => "And"
  | or => "Or"
  | xor => "Xor"
  | not => "Not"

/-- The number of operands that a bit operator declares. -/
def arity : Bitwise → Nat
  | not => 1
  | _ => 2

/-- An operation on the bits of two integers. -/
def onWords (function : String) (f : Int64 → Int64 → Int64) (a b : Value) : Outcome Value := do
  let i ← a.toWord function
  let j ← b.toWord function
  return .int (f i j)

/-- The rule of a bit operator. -/
def rule (op : Bitwise) : Rule :=
  let function := op.name
  match op with
  | and => .two (onWords function (· &&& ·))
  | or => .two (onWords function (· ||| ·))
  | xor => .two (onWords function (· ^^^ ·))
  | not => .one fun a => (a.toWord function).map fun i => .int (~~~i)

/-- A bit operator takes as many operands as it declares. -/
theorem takes_rule (op : Bitwise) : op.rule.takes = op.arity := by cases op <;> rfl

end Bitwise

end Telemetry
