import Telemetry.Number.Integer
import Telemetry.Number.Real
import Telemetry.Number.Shortest
import Telemetry.Word

/-!
# Doubles in text

A double is written with the digits of its shortest decimal. Where the point
stands, and when an exponent is written instead, is laid down in a record: values
are written in the compact notation, JSON numbers in the signed one, and the numbers
that error messages quote in the plain one.
-/

namespace Telemetry.Number

/-- How the digits of a double are laid out. -/
structure Layout where
  /-- The places of the point, counted from the first digit, that are written
  without an exponent; all of them if there are no bounds. -/
  positional : Option (Int × Int)
  /-- Whether a number without a fraction ends in `.0`. -/
  wholeFraction : Bool
  /-- Whether a positive exponent is written with its sign. -/
  plus : Bool
  /-- The digits taken when two decimals are equally near. -/
  tie : Tie

/-- Positional below `10 ^ 16` and down to `0.00001`; an exponent outside. -/
def compact : Layout := ⟨some (-4, 16), true, false, .toEven⟩

/-- As the compact notation, but every exponent has a sign. -/
def signed : Layout := { compact with plus := true }

/-- Always positional, without a fraction where there is none. -/
def plain : Layout := ⟨none, false, false, .up⟩

/-- Digits with the point behind the first `point` of them. -/
def Layout.positionalText (l : Layout) (ds : List Char) (point : Int) : List Char :=
  if point ≤ 0 then '0' :: '.' :: (List.replicate (-point).toNat '0' ++ ds)
  else if point < ds.length then ds.take point.toNat ++ '.' :: ds.drop point.toNat
  else
    ds ++ List.replicate (point.toNat - ds.length) '0' ++ (if l.wholeFraction then ['.', '0'] else [])

/-- Digits with the point behind the first one, and an exponent. -/
def Layout.exponentText (l : Layout) (ds : List Char) (exponent : Int) : List Char :=
  let fraction := ds.drop 1
  let sign := if l.plus && 0 ≤ exponent then ['+'] else []
  ds.take 1 ++ (if fraction.isEmpty then [] else '.' :: fraction) ++
    'e' :: (sign ++ integerText exponent)

/-- The text of a finite double. -/
def Layout.finiteText (l : Layout) (x : Float) : List Char :=
  let bits := x.toBits.toNat
  let sign := if bits < Word.halfCount then [] else ['-']
  if bits % Word.halfCount = 0 then
    sign ++ '0' :: (if l.wholeFraction then ['.', '0'] else [])
  else
    let d := (Binary.ofBits bits).shortest l.tie
    let ds := digits d.coefficient
    let point : Int := ds.length + d.exponent
    sign ++
      (match l.positional with
        | none => l.positionalText ds point
        | some (least, most) =>
          if least ≤ point ∧ point ≤ most then l.positionalText ds point
          else l.exponentText ds (point - 1))

/-- The text of a double as a value: integral values below `10 ^ 15` drop the
fraction, others are in compact notation. -/
def valueText (x : Float) : List Char :=
  if x.isNaN then "NaN".toList
  else if x.isInf then (if 0.0 < x then "Infinity" else "-Infinity").toList
  else if isIntegral x && x.abs < 1e15 then integerText (nearestInt x)
  else compact.finiteText x

/-- The text of a double inside an error message. -/
def messageText (x : Float) : List Char :=
  if x.isNaN then "NaN".toList
  else if x.isInf then (if 0.0 < x then "inf" else "-inf").toList
  else plain.finiteText x

end Telemetry.Number
