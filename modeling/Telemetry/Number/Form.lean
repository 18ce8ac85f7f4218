/-!
# The shape of numbers

A number is an optional sign, digits with an optional point among them, and an
optional exponent. `prefix?` cuts the longest number from the front of a text.
Which characters are digits is a parameter, because the shape of a literal is
told by digits of any script.
-/

namespace Telemetry.Number

/-- The sign at the front, if there is one, and the rest. -/
def cutSign : List Char → List Char × List Char
  | '+' :: cs => (['+'], cs)
  | '-' :: cs => (['-'], cs)
  | cs => ([], cs)

/-- Digits with an optional point, at least one digit in all, and the rest. -/
def cutMantissa? (isDigit : Char → Bool) (cs : List Char) : Option (List Char × List Char) :=
  let whole := cs.takeWhile isDigit
  match cs.dropWhile isDigit with
  | '.' :: tail =>
    let fraction := tail.takeWhile isDigit
    if whole.isEmpty && fraction.isEmpty then none
    else some (whole ++ '.' :: fraction, tail.dropWhile isDigit)
  | rest => if whole.isEmpty then none else some (whole, rest)

/-- The exponent at the front, if there is one, and the rest. -/
def cutExponent (isDigit : Char → Bool) (cs : List Char) : List Char × List Char :=
  match cs with
  | [] => ([], [])
  | c :: tail =>
    if c = 'e' ∨ c = 'E' then
      let (sign, rest) := cutSign tail
      let ds := rest.takeWhile isDigit
      if ds.isEmpty then ([], cs) else (c :: (sign ++ ds), rest.dropWhile isDigit)
    else ([], cs)

/-- The number at the front and the rest. -/
def prefix? (isDigit : Char → Bool) (cs : List Char) : Option (List Char × List Char) :=
  let (sign, rest) := cutSign cs
  (cutMantissa? isDigit rest).map fun (mantissa, rest) =>
    let (exponent, rest) := cutExponent isDigit rest
    (sign ++ (mantissa ++ exponent), rest)

/-- Whether a whole text is a number. -/
def isNumber (isDigit : Char → Bool) (cs : List Char) : Bool :=
  match prefix? isDigit cs with
  | some (_, []) => true
  | _ => false

/-- Whether a whole text is an optional sign and digits. -/
def isInteger (isDigit : Char → Bool) (cs : List Char) : Bool :=
  let (_, rest) := cutSign cs
  !rest.isEmpty && rest.all isDigit

example : (prefix? Char.isDigit "-1.5e2x".toList).map (·.2) = some ['x'] := by decide +kernel

example : isNumber Char.isDigit "2e+".toList = false := by decide +kernel

end Telemetry.Number
