import Telemetry.Number.Integer

/-!
# Reading doubles

A numeral is digits with an optional point among them and an optional exponent;
it stands for a natural number times a power of ten, and reading rounds that to
the nearest double. A whole text is a number if it is a numeral or one of the
names of the infinities and of NaN, after an optional sign.
-/

namespace Telemetry.Number

/-- A natural number times a power of ten. -/
structure Numeral where
  coefficient : Nat
  exponent : Int

/-- The nearest double. Exponents far outside the range are decided at once. -/
def Numeral.toFloat (n : Numeral) : Float :=
  let top := n.exponent + (digits n.coefficient).length
  if n.coefficient = 0 then 0.0
  else if 320 < top then 1.0 / 0.0
  else if top < -340 then 0.0
  else Float.ofScientific n.coefficient (n.exponent < 0) n.exponent.natAbs

/-- The natural number that decimal digits stand for. -/
def digitsValue (cs : List Char) : Nat := Nat.ofDigitChars 10 cs 0

/-- A sign at the front, and the rest; true stands for a minus. -/
def splitSign : List Char → Bool × List Char
  | '-' :: cs => (true, cs)
  | '+' :: cs => (false, cs)
  | cs => (false, cs)

/-- The exponent that a text is, with its mark; nothing stands for zero. -/
def exponent? : List Char → Option Int
  | [] => some 0
  | c :: cs =>
    if c = 'e' ∨ c = 'E' then
      let (negative, ds) := splitSign cs
      if ds.isEmpty || !ds.all Char.isDigit then none
      else some (if negative then -(digitsValue ds : Int) else digitsValue ds)
    else none

/-- The numeral that a whole text is. -/
def numeral? (cs : List Char) : Option Numeral :=
  let whole := cs.takeWhile Char.isDigit
  let rest := cs.dropWhile Char.isDigit
  let (fraction, rest) :=
    match rest with
    | '.' :: tail => (tail.takeWhile Char.isDigit, tail.dropWhile Char.isDigit)
    | _ => ([], rest)
  if whole.isEmpty && fraction.isEmpty then none
  else
    (exponent? rest).map fun e => ⟨digitsValue (whole ++ fraction), e - fraction.length⟩

/-- The ASCII letters of a text in lower case. -/
def lowerLetters (cs : List Char) : List Char := cs.map Char.toLower

/-- The double that a text without a sign is. -/
def unsigned? (cs : List Char) : Option Float :=
  match numeral? cs with
  | some n => some n.toFloat
  | none =>
    let name := lowerLetters cs
    if name = "inf".toList ∨ name = "infinity".toList then some (1.0 / 0.0)
    else if name = "nan".toList then some (0.0 / 0.0)
    else none

/-- The double that a whole text is. -/
def float? (cs : List Char) : Option Float :=
  let (negative, rest) := splitSign cs
  (unsigned? rest).map fun x => if negative then -x else x

end Telemetry.Number
