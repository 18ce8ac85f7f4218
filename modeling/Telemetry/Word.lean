/-!
# Signed words

Integers, dates and timestamps of the value model are signed words of 64 bits.
This file holds the passage between a word and the unbounded integer it stands
for: the exact one, which fails outside the range, and the saturating one.
`ofInt?_eq_some_iff` says that the exact passage loses nothing.
-/

namespace Telemetry.Word

/-- How many words there are. -/
def count : Nat := 18446744073709551616

/-- How many words are below zero, and how many are not. -/
def halfCount : Nat := 9223372036854775808

/-- The word that stands for `x`, if `x` is in range. -/
def ofInt? (x : Int) : Option Int64 :=
  if -9223372036854775808 ≤ x ∧ x ≤ 9223372036854775807 then some (Int64.ofInt x) else none

/-- The word nearest to `x`. -/
def saturate (x : Int) : Int64 :=
  if x < -9223372036854775808 then Int64.minValue
  else if x > 9223372036854775807 then Int64.maxValue
  else Int64.ofInt x

/-- Multiplication that fails when the product is out of range. -/
def mul? (a b : Int64) : Option Int64 := ofInt? (a.toInt * b.toInt)

/-- Addition that fails when the sum is out of range. -/
def add? (a b : Int64) : Option Int64 := ofInt? (a.toInt + b.toInt)

/-- Subtraction that fails when the difference is out of range. -/
def sub? (a b : Int64) : Option Int64 := ofInt? (a.toInt - b.toInt)

/-- Subtraction that stops at the ends of the range. -/
def subSaturating (a b : Int64) : Int64 := saturate (a.toInt - b.toInt)

/-- A word stands for an integer in range. -/
theorem toInt_bounds (w : Int64) :
    -9223372036854775808 ≤ w.toInt ∧ w.toInt ≤ 9223372036854775807 := by
  have h₁ := w.le_toInt
  have h₂ := w.toInt_lt
  omega

/-- The word of an integer in range stands for that integer. -/
theorem toInt_ofInt {x : Int}
    (h : -9223372036854775808 ≤ x ∧ x ≤ 9223372036854775807) : (Int64.ofInt x).toInt = x :=
  Int64.toInt_ofInt_of_le (by omega) (by omega)

/-- The saturating passage stops at the ends of the range. -/
theorem toInt_saturate (x : Int) :
    (saturate x).toInt = max (-9223372036854775808) (min x 9223372036854775807) := by
  have hmin : Int64.minValue.toInt = -9223372036854775808 := by decide
  have hmax : Int64.maxValue.toInt = 9223372036854775807 := by decide
  unfold saturate
  split
  · rw [hmin]
    omega
  · split
    · rw [hmax]
      omega
    · rw [toInt_ofInt (by omega)]
      omega

/-- The exact passage answers `w` for the integer that `w` stands for, and for no other. -/
theorem ofInt?_eq_some_iff {x : Int} {w : Int64} : ofInt? x = some w ↔ w.toInt = x := by
  unfold ofInt?
  split
  case isTrue h =>
    rw [Option.some.injEq]
    constructor
    · intro hw
      rw [← hw]
      exact toInt_ofInt h
    · intro hw
      rw [← hw]
      exact Int64.ofInt_toInt w
  case isFalse h =>
    constructor
    · intro hw
      exact nomatch hw
    · intro hw
      exact absurd (hw ▸ toInt_bounds w) h

/-- The exact passage fails on the integers that no word stands for. -/
theorem ofInt?_eq_none_iff {x : Int} :
    ofInt? x = none ↔ ¬(-9223372036854775808 ≤ x ∧ x ≤ 9223372036854775807) := by
  unfold ofInt?
  split <;> simp [*]

/-- The integer of a word leads back to the word. -/
@[simp] theorem ofInt?_toInt (w : Int64) : ofInt? w.toInt = some w :=
  ofInt?_eq_some_iff.2 rfl

end Telemetry.Word
