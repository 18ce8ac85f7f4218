import Telemetry.Number.Binary

/-!
# The fewest digits that identify a double

The reals that round to one finite double form an interval around it, from
halfway to the double below to halfway to the double above; the ends belong to
it exactly when the significand is even. Among the decimals in that interval
`shortest` chooses the one with the fewest digits and, of several, the nearest.
All comparisons are exact, on natural numbers.
-/

namespace Telemetry.Number

/-- A decimal `coefficient * 10 ^ exponent`. -/
structure Decimal where
  coefficient : Nat
  exponent : Int
  deriving DecidableEq

/-- The order of `a * 10 ^ i` and `n * 2 ^ j`. -/
def compareScaled (a : Nat) (i : Int) (n : Nat) (j : Int) : Ordering :=
  compare (a * Nat.pow 10 i.toNat * Nat.pow 2 (-j).toNat)
    (n * Nat.pow 2 j.toNat * Nat.pow 10 (-i).toNat)

/-- Whether a decimal rounds to the double. -/
def Binary.readsBack (x : Binary) (d : Decimal) : Bool :=
  let low := if x.narrowBelow then 4 * x.significand - 1 else 4 * x.significand - 2
  let high := 4 * x.significand + 2
  let closed := x.significand % 2 == 0
  let below := compareScaled d.coefficient d.exponent low (x.scale - 2)
  let above := compareScaled d.coefficient d.exponent high (x.scale - 2)
  (below == .gt || (closed && below == .eq)) && (above == .lt || (closed && above == .eq))

/-- Which of two decimals that are equally near is taken. -/
inductive Tie where
  | toEven
  | up

/-- The multiple of `10 ^ exponent` at or below the double. -/
def Binary.floorAt (x : Binary) (exponent : Int) : Nat :=
  x.significand * Nat.pow 2 x.scale.toNat * Nat.pow 10 (-exponent).toNat /
    (Nat.pow 10 exponent.toNat * Nat.pow 2 (-x.scale).toNat)

/-- The decimal with the given exponent that rounds to the double, the nearer one
if there are two. -/
def Binary.onGrid? (x : Binary) (tie : Tie) (exponent : Int) : Option Decimal :=
  let below := x.floorAt exponent
  let low : Decimal := ⟨below, exponent⟩
  let high : Decimal := ⟨below + 1, exponent⟩
  match x.readsBack low, x.readsBack high with
  | false, false => none
  | true, false => some low
  | false, true => some high
  | true, true =>
    match compareScaled (2 * below + 1) exponent (2 * x.significand) x.scale with
    | .gt => some low
    | .lt => some high
    | .eq =>
      match tie with
      | .up => some high
      | .toEven => some (if below % 2 = 0 then low else high)

/-- The number of digits in front of the point; for a number below one, less the
number of zeros behind it. -/
def Binary.magnitude (x : Binary) : Int :=
  let whole := x.significand * Nat.pow 2 x.scale.toNat
  let unit := Nat.pow 2 (-x.scale).toNat
  if unit ≤ whole then (Nat.toDigits 10 (whole / unit)).length
  else 1 - (Nat.toDigits 10 ((unit + whole - 1) / whole - 1)).length

/-- The decimal without zeros at its end; `fuel` bounds their number. -/
def Decimal.strip : Nat → Decimal → Decimal
  | 0, d => d
  | fuel + 1, d =>
    if d.coefficient ≠ 0 ∧ d.coefficient % 10 = 0 then
      Decimal.strip fuel ⟨d.coefficient / 10, d.exponent + 1⟩
    else d

/-- The shortest decimal of a positive double. Seventeen digits always suffice. -/
def Binary.shortest (x : Binary) (tie : Tie) : Decimal :=
  let top := x.magnitude
  let found := (List.range 17).findSome? fun (n : Nat) => x.onGrid? tie (top - (n + 1))
  Decimal.strip 20 (found.getD ⟨x.floorAt (top - 17), top - 17⟩)

example : (Binary.ofBits 0x3fd3333333333334).shortest .toEven = ⟨30000000000000004, -17⟩ := by
  decide +kernel

example : (Binary.ofBits 1).shortest .toEven = ⟨5, -324⟩ := by decide +kernel

example : (Binary.ofBits 0x44b52d02c7e14af6).shortest .toEven = ⟨1, 23⟩ := by decide +kernel

end Telemetry.Number
