import Telemetry.Operator.Arithmetic

/-!
# Functions of analysis

Trigonometric functions, roots, powers and logarithms. All of them take numbers
of any kind and give doubles.
-/

namespace Telemetry

/-- The functions of analysis. -/
inductive Analysis where
  | sine
  | cosine
  | tangent
  | arcTangent
  | squareRoot
  | naturalLog
  | decimalLog
  | exponential
  | power
  | angle
  deriving DecidableEq

namespace Analysis

/-- Every function of analysis. -/
def all : List Analysis :=
  [sine, cosine, tangent, arcTangent, squareRoot, naturalLog, decimalLog, exponential, power, angle]

/-- The list misses no function. -/
theorem mem_all (op : Analysis) : op ∈ all := by cases op <;> decide

/-- The name of a function. -/
def name : Analysis → String
  | sine => "Sin"
  | cosine => "Cos"
  | tangent => "Tan"
  | arcTangent => "Atn"
  | squareRoot => "Sqr"
  | naturalLog => "Log"
  | decimalLog => "Log10"
  | exponential => "Exp"
  | power => "Pow"
  | angle => "Atan2"

/-- The number of operands that a function declares. -/
def arity : Analysis → Nat
  | power | angle => 2
  | _ => 1

/-- A function of one number. -/
def onFloat (function : String) (f : Float → Float) : Rule :=
  .one fun a => (a.toFloat function).map fun x => .float (f x)

/-- The rule of a function. -/
def rule (op : Analysis) : Rule :=
  let function := op.name
  match op with
  | sine => onFloat function Float.sin
  | cosine => onFloat function Float.cos
  | tangent => onFloat function Float.tan
  | arcTangent => onFloat function Float.atan
  | squareRoot => onFloat function Float.sqrt
  | naturalLog => onFloat function Float.log
  | decimalLog => onFloat function Float.log10
  | exponential => onFloat function Float.exp
  | power => .two (Arithmetic.onFloats function Float.pow)
  | angle => .two (Arithmetic.onFloats function Float.atan2)

/-- A function takes as many operands as it declares. -/
theorem takes_rule (op : Analysis) : op.rule.takes = op.arity := by cases op <;> rfl

end Analysis

end Telemetry
