import Telemetry.Number.Binary
import Telemetry.Word

/-!
# Operations on doubles

Rounding and choosing among doubles where the operations of core do not already
say how: truncation, the extremes that pass over NaN, the nearest word, and the
key of the total order of doubles.
-/

namespace Telemetry.Number

/-- Whether the sign bit is set, as it is for negative zero. -/
def isNegative (x : Float) : Bool := Word.halfCount ≤ x.toBits.toNat

/-- A whole number under the sign of a double; what is not finite stays as it is. -/
def onMagnitude (f : Binary → Nat) (x : Float) : Float :=
  if x.isFinite then
    let n := Float.ofNat (f (Binary.ofFloat x))
    if isNegative x then -n else n
  else x

/-- The integral part, with the sign of the number kept. -/
def truncate (x : Float) : Float := onMagnitude Binary.whole x

/-- The nearest integral number, halves going away from zero. -/
def round (x : Float) : Float := onMagnitude Binary.nearest x

/-- The greatest integral number that is not above the number. -/
def floor (x : Float) : Float :=
  onMagnitude (if isNegative x then Binary.wholeAbove else Binary.whole) x

/-- Whether a number is finite and has no fraction. -/
def isIntegral (x : Float) : Bool := x.isFinite && !(Binary.ofFloat x).hasFraction

/-- The integer nearest to a finite number, halves going away from zero. -/
def nearestInt (x : Float) : Int :=
  let n := (Binary.ofFloat x).nearest
  if isNegative x then -n else n

/-- The greater of two numbers; NaN yields to a number. -/
def greater (x y : Float) : Float :=
  if x.isNaN then y else if y.isNaN then x else if x < y then y else x

/-- The lesser of two numbers; NaN yields to a number. -/
def lesser (x y : Float) : Float :=
  if x.isNaN then y else if y.isNaN then x else if y < x then y else x

/-- The nearest word, halves going away from zero; none for what is not finite or
out of range. -/
def nearestWord? (x : Float) : Option Int64 :=
  if x.isFinite then Word.ofInt? (nearestInt x) else none

/-- The double nearest to a word. -/
def ofWord (w : Int64) : Float := Float.ofInt w.toInt

/-- A key that puts doubles into their total order: negative zero comes before
zero, and NaN stands outside the infinities. -/
def totalKey (x : Float) : Int :=
  let bits := x.toBits.toNat
  if bits < Word.halfCount then bits else Word.halfCount - 1 - bits

/-- The order that sorts doubles. -/
def totalLE (x y : Float) : Bool := totalKey x ≤ totalKey y

/-- The order that sorts doubles is transitive. -/
theorem totalLE_trans (x y z : Float) (h₁ : totalLE x y = true) (h₂ : totalLE y z = true) :
    totalLE x z = true := by
  simp only [totalLE, decide_eq_true_eq] at *
  omega

/-- Any two doubles are in order one way or the other. -/
theorem totalLE_total (x y : Float) : (totalLE x y || totalLE y x) = true := by
  simp only [totalLE, Bool.or_eq_true, decide_eq_true_eq]
  omega

/-- A power of ten; for a negative exponent the reciprocal of the power. -/
def tenPower (k : Int) : Float :=
  if k < 0 then 1.0 / Float.ofNat (Nat.pow 10 k.natAbs) else Float.ofNat (Nat.pow 10 k.toNat)

end Telemetry.Number
