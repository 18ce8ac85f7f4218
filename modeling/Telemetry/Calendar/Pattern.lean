import Telemetry.Calendar.Instant
import Telemetry.Number.Integer

/-!
# Writing instants by a pattern

A pattern is text with specifiers in it, each a percent sign and a letter with an
optional padding mark. It is read into items first, which fails on a specifier
that does not exist or that cannot be written; writing the items never fails.
All text is for one time zone, which has no offset.
-/

namespace Telemetry.Calendar

/-- What stands in front of a number that is too short. -/
inductive Pad where
  | nothing
  | zeros
  | blanks

/-- The numbers that a pattern can ask for. -/
inductive Field where
  | year
  | century
  | yearOfCentury
  | isoYear
  | isoYearOfCentury
  | quarter
  | month
  | day
  | weekFromSunday
  | weekFromMonday
  | isoWeek
  | daysFromSunday
  | weekdayFromMonday
  | dayOfYear
  | hour
  | hour12
  | minute
  | second
  | nano
  | unixSecond

/-- The parts of a pattern. -/
inductive Item where
  | text (cs : List Char)
  | number (field : Field) (pad : Pad)
  | monthName (short : Bool)
  | weekdayName (short : Bool)
  | halfDay (lower : Bool)
  /-- The fraction of the second, with its point, in as many groups of three
  digits as it needs. -/
  | fraction
  | fractionDigits (places : Nat) (point : Bool)
  /-- Date and time in one word, with the offset. -/
  | standard

/-- The names of the months. -/
def fullMonths : List String :=
  ["January", "February", "March", "April", "May", "June", "July", "August", "September",
   "October", "November", "December"]

/-- The names of the days of the week, from Monday on. -/
def fullWeekdays : List String :=
  ["Monday", "Tuesday", "Wednesday", "Thursday", "Friday", "Saturday", "Sunday"]

/-- A name, or its first three letters. -/
def nameText (names : List String) (index : Nat) (short : Bool) : List Char :=
  let cs := (names.getD index "").toList
  if short then cs.take 3 else cs

/-- The value of a field and the width it is padded to. -/
def Field.value (t : Instant) : Field → Int × Nat
  | .year => ((dateOf t).year, 4)
  | .century => ((dateOf t).year / 100, 2)
  | .yearOfCentury => ((dateOf t).year % 100, 2)
  | .isoYear => ((IsoWeek.ofDay (dayOf t)).year, 4)
  | .isoYearOfCentury => ((IsoWeek.ofDay (dayOf t)).year % 100, 2)
  | .quarter => (((dateOf t).month + 2) / 3, 1)
  | .month => ((dateOf t).month, 2)
  | .day => ((dateOf t).day, 2)
  | .weekFromSunday => ((Calendar.dayOfYear (dayOf t) + 7 - (weekday (dayOf t) + 1) % 7 : Nat) / 7, 2)
  | .weekFromMonday => ((Calendar.dayOfYear (dayOf t) + 7 - weekday (dayOf t) : Nat) / 7, 2)
  | .isoWeek => ((IsoWeek.ofDay (dayOf t)).week, 2)
  | .daysFromSunday => ((weekday (dayOf t) + 1) % 7, 1)
  | .weekdayFromMonday => (weekday (dayOf t) + 1, 1)
  | .dayOfYear => (Calendar.dayOfYear (dayOf t) + 1, 3)
  | .hour => (hourOf t, 2)
  | .hour12 => ((hourOf t + 11) % 12 + 1, 2)
  | .minute => (minuteOf t, 2)
  | .second => (secondOf t, 2)
  | .nano => (nanoOf t, 9)
  | .unixSecond => (t.toInt / nanosPerSecond, 9)

/-- A number padded to a width that counts its sign. -/
def padText (pad : Pad) (width : Nat) (x : Int) : List Char :=
  let plain := Number.integerText x
  match pad with
  | .nothing => plain
  | .blanks => List.replicate (width - plain.length) ' ' ++ plain
  | .zeros =>
    if x < 0 then '-' :: Number.padded (width - 1) x.natAbs else Number.padded width x.natAbs

/-- A number in two digits. -/
def two (n : Nat) : List Char := Number.padded 2 n

/-- The fraction of the second in no, three, six or nine digits. -/
def fractionText (t : Instant) : List Char :=
  let nano := nanoOf t
  if nano = 0 then []
  else if nano % 1000000 = 0 then '.' :: Number.padded 3 (nano / 1000000)
  else if nano % 1000 = 0 then '.' :: Number.padded 6 (nano / 1000)
  else '.' :: Number.padded 9 nano

/-- Year, month and day. -/
def dateText (t : Instant) : List Char :=
  let d := dateOf t
  padText .zeros 4 d.year ++ '-' :: two d.month ++ '-' :: two d.day

/-- Hour, minute, second and the fraction of the second. -/
def timeText (t : Instant) : List Char :=
  two (hourOf t) ++ ':' :: two (minuteOf t) ++ ':' :: two (secondOf t) ++ fractionText t

/-- The text of one item. -/
def Item.write (t : Instant) : Item → List Char
  | .text cs => cs
  | .number field pad =>
    let (x, width) := field.value t
    padText pad width x
  | .monthName short => nameText fullMonths ((dateOf t).month - 1) short
  | .weekdayName short => nameText fullWeekdays (weekday (dayOf t)) short
  | .halfDay lower =>
    if hourOf t < 12 then (if lower then ['a', 'm'] else ['A', 'M'])
    else (if lower then ['p', 'm'] else ['P', 'M'])
  | .fraction => fractionText t
  | .fractionDigits places point =>
    (if point then ['.'] else []) ++ Number.padded places (nanoOf t / Nat.pow 10 (9 - places))
  | .standard => dateText t ++ 'T' :: timeText t ++ "+00:00".toList

/-- The field of a letter that stands for a number, with its own padding. -/
def field? : Char → Option (Field × Pad)
  | 'C' => some (.century, .zeros)
  | 'G' => some (.isoYear, .zeros)
  | 'H' => some (.hour, .zeros)
  | 'I' => some (.hour12, .zeros)
  | 'M' => some (.minute, .zeros)
  | 'S' => some (.second, .zeros)
  | 'U' => some (.weekFromSunday, .zeros)
  | 'V' => some (.isoWeek, .zeros)
  | 'W' => some (.weekFromMonday, .zeros)
  | 'Y' => some (.year, .zeros)
  | 'd' => some (.day, .zeros)
  | 'e' => some (.day, .blanks)
  | 'f' => some (.nano, .zeros)
  | 'g' => some (.isoYearOfCentury, .zeros)
  | 'j' => some (.dayOfYear, .zeros)
  | 'k' => some (.hour, .blanks)
  | 'l' => some (.hour12, .blanks)
  | 'm' => some (.month, .zeros)
  | 'q' => some (.quarter, .nothing)
  | 's' => some (.unixSecond, .nothing)
  | 'u' => some (.weekdayFromMonday, .nothing)
  | 'w' => some (.daysFromSunday, .nothing)
  | 'y' => some (.yearOfCentury, .zeros)
  | _ => none

/-- A number with padding by zeros. -/
def zeros (f : Field) : Item := .number f .zeros

/-- Numbers with a mark between them. -/
def joined (mark : Char) : List Item → List Item
  | [] => []
  | [i] => [i]
  | i :: is => i :: .text [mark] :: joined mark is

/-- The items of a letter that stands for something else than one number. -/
def items? : Char → Option (List Item)
  | 'A' => some [.weekdayName false]
  | 'B' => some [.monthName false]
  | 'D' | 'x' => some (joined '/' [zeros .month, zeros .day, zeros .yearOfCentury])
  | 'F' => some (joined '-' [zeros .year, zeros .month, zeros .day])
  | 'P' => some [.halfDay true]
  | 'R' => some (joined ':' [zeros .hour, zeros .minute])
  | 'T' | 'X' => some (joined ':' [zeros .hour, zeros .minute, zeros .second])
  | 'Z' => some [.text "UTC".toList]
  | 'a' => some [.weekdayName true]
  | 'b' | 'h' => some [.monthName true]
  | 'c' =>
    some
      ([.weekdayName true, .text [' '], .monthName true, .text [' '], .number .day .blanks,
          .text [' ']] ++
        joined ':' [zeros .hour, zeros .minute, zeros .second] ++ [.text [' '], zeros .year])
  | 'n' => some [.text ['\n']]
  | 'p' => some [.halfDay false]
  | 'r' =>
    some
      (joined ':' [zeros .hour12, zeros .minute, zeros .second] ++ [.text [' '], .halfDay false])
  | 't' => some [.text ['\t']]
  | 'v' => some (joined '-' [.number .day .blanks, .monthName true, zeros .year])
  | 'z' => some [.text "+0000".toList]
  | '+' => some [.standard]
  | '%' => some [.text ['%']]
  | _ => none

/-- A number whose padding a mark decides. -/
def marked (pad : Pad) (c : Char) : Option (List Item × Nat) :=
  (field? c).map fun f => ([.number f.1 pad], 2)

/-- The items of the specifier at the front, less its percent sign, and how many
characters it takes. -/
def specifier? : List Char → Option (List Item × Nat)
  | '-' :: c :: _ => marked .nothing c
  | '0' :: c :: _ => marked .zeros c
  | '_' :: c :: _ => marked .blanks c
  | ':' :: 'z' :: _ => some ([.text "+00:00".toList], 2)
  | ':' :: ':' :: 'z' :: _ => some ([.text "+00:00:00".toList], 3)
  | ':' :: ':' :: ':' :: 'z' :: _ => some ([.text "+00".toList], 4)
  | '.' :: 'f' :: _ => some ([.fraction], 2)
  | '.' :: '3' :: 'f' :: _ => some ([.fractionDigits 3 true], 3)
  | '.' :: '6' :: 'f' :: _ => some ([.fractionDigits 6 true], 3)
  | '.' :: '9' :: 'f' :: _ => some ([.fractionDigits 9 true], 3)
  | '3' :: 'f' :: _ => some ([.fractionDigits 3 false], 2)
  | '6' :: 'f' :: _ => some ([.fractionDigits 6 false], 2)
  | '9' :: 'f' :: _ => some ([.fractionDigits 9 false], 2)
  | c :: _ =>
    match field? c with
    | some (f, pad) => some ([.number f pad], 1)
    | none => (items? c).map (·, 1)
  | [] => none

/-- The items of a pattern. -/
def pattern? : List Char → Option (List Item)
  | [] => some []
  | c :: cs =>
    if c = '%' then
      match specifier? cs with
      | none => none
      | some (items, used) => (pattern? (cs.drop used)).map (items ++ ·)
    else (pattern? cs).map (.text [c] :: ·)
termination_by cs => cs.length
decreasing_by
  · simp only [List.length_drop, List.length_cons]; omega
  · simp

/-- The text of an instant by a pattern. -/
def format? (t : Instant) (pattern : List Char) : Option (List Char) :=
  (pattern? pattern).map fun items => items.flatMap (·.write t)

example : (format? 0 "%Y/%-m/%e %a%%".toList).map String.ofList = some "1970/1/ 1 Thu%" := by
  decide +kernel

example : (format? 0 "%Q".toList).isNone = true ∧ (format? 0 "%".toList).isNone = true := by
  decide +kernel

end Telemetry.Calendar
