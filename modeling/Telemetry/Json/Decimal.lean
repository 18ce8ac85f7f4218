import Telemetry.Number.Real
import Telemetry.Number.Reading

/-!
# JSON numbers

A number in JSON is an optional minus, digits, an optional fraction and an
optional exponent. It is read as a word only if it is written without fraction and
exponent. As a double it is approximated: as many leading digits as fit into 64
bits are scaled by a power of ten, with one rounding for the digits and one for
the scaling.
-/

namespace Telemetry.Json

/-- A number as it is written. -/
structure Decimal where
  negative : Bool
  whole : List Char
  /-- The digits behind the point; without them there is no point. -/
  fraction : List Char
  exponent : Option Int
  deriving DecidableEq

namespace Decimal

/-- The greatest significand. -/
def significandLimit : Nat := 18446744073709551615

/-- A significand and the power of ten that scales it. -/
structure Scaled where
  significand : Nat
  exponent : Int

/-- Takes in digits in front of the point. From the first that does not fit on, each
counts as a power of ten. -/
def Scaled.whole (s : Scaled) : List Char → Scaled
  | [] => s
  | d :: ds =>
    let next := 10 * s.significand + Number.digitsValue [d]
    if next ≤ significandLimit then { s with significand := next }.whole ds
    else { s with exponent := s.exponent + (d :: ds).length }

/-- Takes in digits behind the point, up to the first that does not fit. -/
def Scaled.fraction (s : Scaled) : List Char → Scaled
  | [] => s
  | d :: ds =>
    let next := 10 * s.significand + Number.digitsValue [d]
    if next ≤ significandLimit then Scaled.fraction ⟨next, s.exponent - 1⟩ ds else s

/-- A double times a power of ten; none if that is out of range. Powers below the
least double are taken in steps. -/
def scale (x : Float) (e : Int) : Option Float :=
  if e.natAbs ≤ 308 then
    if 0 ≤ e then
      let y := x * Float.ofNat (Nat.pow 10 e.natAbs)
      if y.isFinite then some y else none
    else some (x / Float.ofNat (Nat.pow 10 e.natAbs))
  else if x == 0.0 then some x
  else if 0 ≤ e then none
  else scale (x / Float.ofNat (Nat.pow 10 308)) (e + 308)
termination_by e.natAbs
decreasing_by omega

/-- The double that a number is read as; none if it is out of range. -/
def toFloat? (d : Decimal) : Option Float :=
  let s := ((Scaled.mk 0 0).whole d.whole).fraction d.fraction
  (scale (Float.ofNat s.significand) (s.exponent + d.exponent.getD 0)).map fun x =>
    if d.negative then -x else x

/-- The word that a number is read as. A minus in front of zero makes it no word. -/
def toWord? (d : Decimal) : Option Int64 :=
  let n := Number.digitsValue d.whole
  if !d.fraction.isEmpty || d.exponent.isSome then none
  else if d.negative then
    if 0 < n ∧ n ≤ 9223372036854775808 then some (Int64.ofInt (-n)) else none
  else if n ≤ 9223372036854775807 then some (Int64.ofInt n)
  else none

/-- Digits that may stand in front of the point: zero, or no zero first. -/
def whole? (cs : List Char) : Option (List Char × List Char) :=
  let ds := cs.takeWhile Char.isDigit
  if ds = [] ∨ (ds.head? = some '0' ∧ ds ≠ ['0']) then none
  else some (ds, cs.dropWhile Char.isDigit)

/-- The point and the digits behind it, at least one. -/
def fraction? : List Char → Option (List Char × List Char)
  | '.' :: cs =>
    let ds := cs.takeWhile Char.isDigit
    if ds = [] then none else some (ds, cs.dropWhile Char.isDigit)
  | cs => some ([], cs)

/-- The exponent with its mark. -/
def exponent? (cs : List Char) : Option (Option Int × List Char) :=
  match cs with
  | [] => some (none, [])
  | c :: tail =>
    if c = 'e' ∨ c = 'E' then
      let (negative, rest) := Number.splitSign tail
      let ds := rest.takeWhile Char.isDigit
      let n : Int := Number.digitsValue ds
      if ds = [] then none
      else some (some (if negative then -n else n), rest.dropWhile Char.isDigit)
    else some (none, cs)

/-- The number at the front of a text and what follows it. -/
def prefix? (cs : List Char) : Option (Decimal × List Char) := do
  let (negative, cs) := if cs.head? = some '-' then (true, cs.tail) else (false, cs)
  let (whole, cs) ← whole? cs
  let (fraction, cs) ← fraction? cs
  let (exponent, cs) ← exponent? cs
  return (⟨negative, whole, fraction, exponent⟩, cs)

example : (prefix? "-0".toList).map (·.1.toWord?) = some none := by decide

example : (prefix? "12.5e3x".toList).map (·.2) = some ['x'] := by decide

example : prefix? "01".toList = none := by decide

end Decimal

end Telemetry.Json
