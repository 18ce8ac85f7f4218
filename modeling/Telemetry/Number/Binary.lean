/-!
# Doubles in exact terms

Less its sign, a finite double is a natural number times a power of two. This file
reads both off the bits and computes the whole numbers beside a double on natural
numbers, where nothing is rounded.
-/

namespace Telemetry.Number

/-- A double `significand * 2 ^ scale`, less its sign. -/
structure Binary where
  significand : Nat
  scale : Int
  /-- The double below stands only half as far away as the double above. -/
  narrowBelow : Bool

/-- The finite double, less its sign, that the bits stand for. -/
def Binary.ofBits (bits : Nat) : Binary :=
  let exponent : Nat := bits / Nat.pow 2 52 % Nat.pow 2 11
  let fraction := bits % Nat.pow 2 52
  if exponent = 0 then ⟨fraction, -1074, false⟩
  else ⟨Nat.pow 2 52 + fraction, (exponent : Int) - 1075, fraction == 0 && 1 < exponent⟩

/-- The finite double, less its sign. -/
def Binary.ofFloat (x : Float) : Binary := .ofBits x.toBits.toNat

/-- A double is its numerator divided by its denominator. -/
def Binary.numerator (x : Binary) : Nat := x.significand * Nat.pow 2 x.scale.toNat

/-- The power of two by which the numerator is divided. -/
def Binary.denominator (x : Binary) : Nat := Nat.pow 2 (-x.scale).toNat

/-- The greatest whole number that is not above the double. -/
def Binary.whole (x : Binary) : Nat := x.numerator / x.denominator

/-- Whether the double is no whole number. -/
def Binary.hasFraction (x : Binary) : Bool := x.numerator % x.denominator != 0

/-- The least whole number that is not below the double. -/
def Binary.wholeAbove (x : Binary) : Nat := if x.hasFraction then x.whole + 1 else x.whole

/-- The nearest whole number; a half goes up. -/
def Binary.nearest (x : Binary) : Nat :=
  if x.denominator ≤ 2 * (x.numerator % x.denominator) then x.whole + 1 else x.whole

/-- The denominator is positive. -/
theorem Binary.denominator_pos (x : Binary) : 0 < x.denominator :=
  Nat.pow_pos (by decide)

/-- The nearest whole number is not below the whole part. -/
theorem Binary.whole_le_nearest (x : Binary) : x.whole ≤ x.nearest := by
  unfold nearest
  split <;> omega

example : (Binary.ofFloat 2.5).nearest = 3 := by decide +kernel

example : (Binary.ofFloat 9007199254740993.0).whole = 9007199254740992 := by decide +kernel

end Telemetry.Number
