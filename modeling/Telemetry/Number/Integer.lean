/-!
# Integers in text

Writing an integer in decimal digits, and reading a word back from digits of
base two, ten or sixteen. A reader goes from left to right and stops at the
first character that is no digit or that carries the value out of range, so the
fault it reports is the one that stands first.
-/

namespace Telemetry.Number

/-- The decimal digits of a natural number. -/
def digits (n : Nat) : List Char := Nat.toDigits 10 n

/-- The decimal text of an integer. -/
def integerText (x : Int) : List Char :=
  if x < 0 then '-' :: digits x.natAbs else digits x.natAbs

/-- The digits of `n`, with zeros in front up to the given width. -/
def padded (width : Nat) (n : Nat) : List Char :=
  List.replicate (width - (digits n).length) '0' ++ digits n

/-- Why a text is not an integer in range. -/
inductive IntegerFault where
  | empty
  | invalidDigit
  | tooLarge
  | tooSmall
  deriving DecidableEq

/-- The wording of a fault. -/
def IntegerFault.message : IntegerFault → String
  | .empty => "cannot parse integer from empty string"
  | .invalidDigit => "invalid digit found in string"
  | .tooLarge => "number too large to fit in target type"
  | .tooSmall => "number too small to fit in target type"

/-- The value of a digit, in either case, if it is below the base. -/
def digitValue? (base : Nat) (c : Char) : Option Nat :=
  let n := c.toNat
  let value? :=
    if 48 ≤ n ∧ n ≤ 57 then some (n - 48)
    else if 97 ≤ n ∧ n ≤ 102 then some (n - 87)
    else if 65 ≤ n ∧ n ≤ 70 then some (n - 55)
    else none
  value?.filter (· < base)

/-- The number that digits stand for after `acc`, at most `limit`. -/
def readDigits (base limit : Nat) (overflow : IntegerFault) : Nat → List Char → Except IntegerFault Nat
  | acc, [] => .ok acc
  | acc, c :: cs =>
    match digitValue? base c with
    | none => .error .invalidDigit
    | some d =>
      if acc * base + d ≤ limit then readDigits base limit overflow (acc * base + d) cs
      else .error overflow

/-- Digits, at least one of them. -/
def readSome (base limit : Nat) (overflow : IntegerFault) : List Char → Except IntegerFault Nat
  | [] => .error .invalidDigit
  | c :: cs => readDigits base limit overflow 0 (c :: cs)

/-- The word that a decimal text with an optional sign stands for. -/
def readWord : List Char → Except IntegerFault Int64
  | [] => .error .empty
  | '-' :: cs =>
    (readSome 10 9223372036854775808 .tooSmall cs).map fun n => Int64.ofInt (-n)
  | '+' :: cs => (readSome 10 9223372036854775807 .tooLarge cs).map fun n => Int64.ofInt n
  | cs => (readSome 10 9223372036854775807 .tooLarge cs).map fun n => Int64.ofInt n

/-- The word whose 64 bits the digits spell. -/
def readBits (base : Nat) (cs : List Char) : Except IntegerFault Int64 :=
  (readSome base 18446744073709551615 .tooLarge cs).map fun n => Int64.ofInt n

example : integerText (-42) = "-42".toList := by decide +kernel

example : readWord "-9223372036854775808".toList = .ok Int64.minValue := rfl

example : readWord "99999999999999999999x".toList = .error .tooLarge := rfl

example : readWord "9x".toList = .error .invalidDigit := rfl

example : readBits 16 "fFFFFFFFFFFFFFFF".toList = .ok (-1) := rfl

end Telemetry.Number
