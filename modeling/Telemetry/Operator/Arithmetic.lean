import Telemetry.Operator.Rule

/-!
# Arithmetic

Sums, products and quotients, rounding and limits. Two operands are brought to one
kind; integers wrap around at the ends of the range. Division by zero has no
sign: it gives positive infinity, or NaN if there was nothing to divide.
-/

namespace Telemetry

/-- The operators of arithmetic. -/
inductive Arithmetic where
  | add
  | subtract
  | multiply
  | divide
  | divideWhole
  | remainder
  | power
  | negate
  | absolute
  | sign
  | floor
  | truncate
  | round
  | scale
  | clamp
  | least
  | greatest
  deriving DecidableEq

namespace Arithmetic

/-- Every operator of arithmetic. -/
def all : List Arithmetic :=
  [add, subtract, multiply, divide, divideWhole, remainder, power, negate, absolute, sign, floor,
   truncate, round, scale, clamp, least, greatest]

/-- The list misses no operator. -/
theorem mem_all (op : Arithmetic) : op ∈ all := by cases op <;> decide

/-- The name of an operator. -/
def name : Arithmetic → String
  | add => "Addition"
  | subtract => "Subtraction"
  | multiply => "Multiplication"
  | divide => "Division"
  | divideWhole => "IntegerDivision"
  | remainder => "Mod"
  | power => "Power"
  | negate => "Neg"
  | absolute => "Abs"
  | sign => "Sign"
  | floor => "Int"
  | truncate => "Fix"
  | round => "Round"
  | scale => "Scale"
  | clamp => "Clamp"
  | least => "Min"
  | greatest => "Max"

/-- The symbol of an operator. -/
def symbol? : Arithmetic → Option String
  | add => some "+"
  | subtract => some "-"
  | multiply => some "*"
  | divide => some "/"
  | divideWhole => some "\\"
  | power => some "^"
  | _ => none

/-- The number of operands that an operator declares. -/
def arity : Arithmetic → Nat
  | negate | absolute | sign | floor | truncate => 1
  | clamp => 3
  | _ => 2

/-- What division by zero gives: NaN if there was nothing to divide, else infinity. -/
def overZero (nothing : Bool) : Value := .float (if nothing then 0.0 / 0.0 else 1.0 / 0.0)

/-- A sum joins texts; the sum of a date and an integer or a date is a date. -/
def sum (a b : Value) : Value :=
  match Pair.of a b with
  | .texts s t => .text (String.ofList (s ++ t))
  | .floats x y => .float (x + y)
  | .words i j dateLeft dateRight =>
    if dateLeft || dateRight then .date (i + j) else .int (i + j)

/-- A difference; a date less an integer is a date, two dates are apart by an
integer. -/
def difference (function : String) (a b : Value) : Outcome Value :=
  match Pair.of a b with
  | .texts _ _ => .error (.typeMismatch function "number" "Text")
  | .floats x y => .ok (.float (x - y))
  | .words i j true false => .ok (.date (i - j))
  | .words i j _ _ => .ok (.int (i - j))

/-- A product of two numbers; dates count as their nanoseconds. -/
def product (function : String) (a b : Value) : Outcome Value :=
  match Pair.of a b with
  | .texts _ _ => .error (.typeMismatch function "number" "Text")
  | .floats x y => .ok (.float (x * y))
  | .words i j _ _ => .ok (.int (i * j))

/-- A quotient of two numbers as doubles. -/
def quotient (function : String) (a b : Value) : Outcome Value := do
  let x ← a.toFloat function
  let y ← b.toFloat function
  if b.isZero then return overZero (a.isZero || x.isNaN)
  return .float (x / y)

/-- An operation on integers, which is not made for the divisor zero. -/
def whole (function : String) (f : Int64 → Int64 → Int64) (a b : Value) : Outcome Value := do
  let n ← a.toWord function
  let d ← b.toWord function
  if d = 0 then return overZero (n = 0)
  return .int (f n d)

/-- An operation on doubles. -/
def onFloats (function : String) (f : Float → Float → Float) (a b : Value) : Outcome Value := do
  let x ← a.toFloat function
  let y ← b.toFloat function
  return .float (f x y)

/-- An operation that keeps doubles and integers apart. -/
def onNumber (function : String) (f : Float → Value) (g : Int64 → Int64) (a : Value) :
    Outcome Value :=
  match a with
  | .float x => .ok (f x)
  | v => (v.toWord function).map fun i => .int (g i)

/-- Minus one, zero or one, like the sign of a number. -/
def wordSign (i : Int64) : Int64 := if i < 0 then -1 else if i = 0 then 0 else 1

/-- The sign of a double; NaN stays NaN. -/
def floatSign (x : Float) : Value :=
  if x.isNaN then .float (0.0 / 0.0)
  else if 0.0 < x then .int 1
  else if x < 0.0 then .int (-1)
  else .int 0

/-- Rounding of doubles, which leaves integers and dates as they are. -/
def rounded (function : String) (f : Float → Float) (a : Value) : Outcome Value :=
  match a with
  | .float x => .ok (.float (f x))
  | .text _ => .error (.typeMismatch function "number" "Text")
  | v => .ok v

/-- A double rounded to a number of decimal places, at most fifteen on either side
of the point. -/
def roundedTo (x : Float) (places : Int64) : Float :=
  let factor := Number.tenPower (max (-15) (min 15 places.toInt))
  Number.round (x * factor) / factor

/-- Rounding to a number of places, which changes no integer unless the number is below zero. -/
def roundPlaces (function : String) (a places : Value) : Outcome Value := do
  let n ← places.toWord function
  match a with
  | .int i => if 0 ≤ n then return .int i else return .float (roundedTo (Number.ofWord i) n)
  | v => return .float (roundedTo (← v.toFloat function) n)

/-- A number kept between two limits, which have to be in order. -/
def clamped (function : String) (a low high : Value) : Outcome Value := do
  let lo ← low.toFloat function
  let hi ← high.toFloat function
  if hi < lo then
    throw (.typeMismatch function "min <= max"
      (String.ofList (Number.messageText lo ++ " > ".toList ++ Number.messageText hi)))
  let x ← a.toFloat function
  return .float (Number.lesser (Number.greater x lo) hi)

/-- One of two numbers. -/
def extreme (function : String) (f : Float → Float → Float) (g : Int64 → Int64 → Bool)
    (a b : Value) : Outcome Value :=
  match Pair.of a b with
  | .texts _ _ => .error (.typeMismatch function "number" "Text")
  | .floats x y => .ok (.float (f x y))
  | .words i j _ _ => .ok (.int (if g i j then i else j))

/-- The rule of an operator. -/
def rule (op : Arithmetic) : Rule :=
  let function := op.name
  match op with
  | add => .two fun a b => .ok (sum a b)
  | subtract => .two (difference function)
  | multiply => .two (product function)
  | divide => .two (quotient function)
  | divideWhole => .two (whole function (· / ·))
  | remainder => .two (whole function (· % ·))
  | power => .two (onFloats function Float.pow)
  | negate => .one (onNumber function (fun x => .float (-x)) (-·))
  | absolute => .one (onNumber function (fun x => .float x.abs) Int64.abs)
  | sign => .one (onNumber function floatSign wordSign)
  | floor => .one (rounded function Number.floor)
  | truncate => .one (rounded function Number.truncate)
  | round => .two (roundPlaces function)
  | scale => .two (onFloats function (· * ·))
  | clamp => .three (clamped function)
  | least => .two (extreme function Number.lesser fun i j => i ≤ j)
  | greatest => .two (extreme function Number.greater fun i j => j ≤ i)

/-- An operator takes as many operands as it declares. -/
theorem takes_rule (op : Arithmetic) : op.rule.takes = op.arity := by cases op <;> rfl

end Arithmetic

end Telemetry
