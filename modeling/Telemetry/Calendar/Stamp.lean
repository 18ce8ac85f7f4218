import Telemetry.Calendar.Pattern
import Telemetry.Number.Reading
import Telemetry.Text.Blank

/-!
# Instants in text

Instants are written as date and time with a blank between them, or, where a
record carries its time, with a `T` between them and a `Z` behind them. Read are
these two, the forms with an offset, and the forms that leave out the seconds or
the time. In the forms without an offset numbers may be short and blanks may stand
in front of them.
-/

namespace Telemetry.Calendar

/-- The text of a date as a value. -/
def valueText (t : Instant) : List Char := dateText t ++ ' ' :: timeText t

/-- The text of the time of a record. -/
def recordText (t : Instant) : List Char := dateText t ++ 'T' :: timeText t ++ ['Z']

/-- A date and time as read. -/
structure Reading where
  date : Date
  hour : Nat := 0
  minute : Nat := 0
  /-- Sixty is allowed and stands for the second after the fifty-ninth. -/
  second : Nat := 0
  nano : Nat := 0
  /-- Seconds by which the clock is ahead. -/
  offset : Int := 0

/-- Whether the calendar and the clock have this date and time. -/
def Reading.isValid (r : Reading) : Bool :=
  r.date.isValid && r.hour ≤ 23 && r.minute ≤ 59 && r.second ≤ 60

/-- The instant of a date and time. -/
def Reading.instant? (r : Reading) : Option Instant :=
  let seconds : Int := r.hour * 3600 + r.minute * 60 + r.second - r.offset
  Calendar.instant? r.date.toDay (seconds * nanosPerSecond + r.nano)

/-- A reader takes characters from the front of a text, or fails. -/
abbrev Reader := StateT (List Char) Option

namespace Reader

/-- Takes one given character. -/
def char (c : Char) : Reader Unit := fun cs =>
  match cs with
  | d :: ds => if c = d then some ((), ds) else none
  | [] => none

/-- Takes the blanks at the front. -/
def blanks : Reader Unit := fun cs => some ((), Text.trimStart cs)

/-- Takes between `least` and `most` digits. -/
def number (least most : Nat) : Reader Nat := fun cs =>
  let ds := (cs.take most).takeWhile Char.isDigit
  if ds.length < least then none else some (Number.digitsValue ds, cs.drop ds.length)

/-- Takes a number that blanks may precede. -/
def loose (most : Nat) : Reader Nat := do
  blanks
  number 1 most

/-- Takes a year: four digits at most, or any number of them behind a sign. -/
def year : Reader Int := do
  blanks
  match ← get with
  | '-' :: cs => set cs; return -(← number 1 cs.length : Nat)
  | '+' :: cs => set cs; return (← number 1 cs.length : Nat)
  | _ => return (← number 1 4 : Nat)

/-- Takes the fraction of a second, if there is one; digits past the ninth have
no weight. -/
def fraction : Reader Nat := do
  match ← get with
  | '.' :: cs =>
    set cs
    let ds := cs.takeWhile Char.isDigit
    if ds.isEmpty then failure
    set (cs.drop ds.length)
    let counted := ds.take 9
    return Number.digitsValue counted * Nat.pow 10 (9 - counted.length)
  | _ => return 0

/-- Takes an offset: `Z`, or a sign, hours, a colon and minutes. The minus sign
may be the typographic one. -/
def offset : Reader Int := do
  match ← get with
  | 'Z' :: cs | 'z' :: cs => set cs; return 0
  | c :: cs =>
    if c ≠ '+' ∧ c ≠ '-' ∧ c ≠ '−' then failure
    set cs
    let hours ← number 2 2
    char ':'
    let minutes ← number 2 2
    if 23 < hours ∨ 59 < minutes then failure
    let seconds : Int := hours * 3600 + minutes * 60
    return if c = '+' then seconds else -seconds
  | [] => failure

/-- Takes a date with a dash between its numbers. -/
def date : Reader Date := do
  let y ← year
  char '-'
  let m ← loose 2
  char '-'
  let d ← loose 2
  return ⟨y, m, d⟩

/-- Takes hour, minute, second and fraction after a date. -/
def time (d : Date) : Reader Reading := do
  let h ← loose 2
  char ':'
  let m ← loose 2
  char ':'
  let s ← loose 2
  let f ← fraction
  return { date := d, hour := h, minute := m, second := s, nano := f }

/-- Takes a date and time with all digits and an offset. -/
def withOffset : Reader Reading := do
  let y ← number 4 4
  char '-'
  let m ← number 2 2
  char '-'
  let d ← number 2 2
  char 'T' <|> char 't' <|> char ' '
  let h ← number 2 2
  char ':'
  let n ← number 2 2
  char ':'
  let s ← number 2 2
  let f ← fraction
  let o ← offset
  return { date := ⟨y, m, d⟩, hour := h, minute := n, second := s, nano := f, offset := o }

/-- Takes date and time with blanks, of which there may be none, between them. -/
def spaced : Reader Reading := do
  let d ← date
  blanks
  time d

/-- Takes date and time with a `T` between them. -/
def lettered : Reader Reading := do
  let d ← date
  char 'T'
  time d

/-- Takes date, hour and minute. -/
def toMinute : Reader Reading := do
  let d ← date
  blanks
  let h ← loose 2
  char ':'
  let m ← loose 2
  return { date := d, hour := h, minute := m }

/-- Takes a date alone. -/
def dateOnly : Reader Reading := do
  return { date := ← date }

end Reader

/-- The valid date and time that a whole text is in one of the forms. -/
def form? (reader : Reader Reading) (cs : List Char) : Option Reading :=
  match reader cs with
  | some (r, []) => if r.isValid then some r else none
  | _ => none

/-- The instant that a text names, between blanks. The first form that fits
decides. -/
def parse? (cs : List Char) : Option Instant :=
  let cs := Text.trim cs
  let forms := [Reader.withOffset, Reader.spaced, Reader.lettered, Reader.toMinute, Reader.dateOnly]
  (forms.findSome? (form? · cs)).bind Reading.instant?

example : parse? "1970-01-02".toList = some 86400000000000 := by decide +kernel

example : parse? " 1970-1-1 0:0:1.5 ".toList = some 1500000000 := by decide +kernel

example : parse? "1970-01-01T02:00:00+02:00".toList = some 0 := by decide +kernel

end Telemetry.Calendar
