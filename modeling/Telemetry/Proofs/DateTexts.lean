import Mathlib.Tactic.SplitIfs
import Telemetry.Function
import Telemetry.Proofs.Application
import Telemetry.Proofs.Intervals
import Telemetry.Proofs.LiteralForms
import Telemetry.Proofs.NumberTexts
import Telemetry.Proofs.SourceItems
import Telemetry.Replay.Record
import Telemetry.Replay.Report

/-!
# Dates written and read back

The text of an instant is read as that instant, in both forms in which instants are written: as a
value (`Calendar.parse?_valueText`) and as the time of a record (`Calendar.parse?_recordText`).  A
reader is followed along the text part by part: each of the readers of parts takes exactly the part
that was written, whatever follows it (`Reader.date_dateText`, `Reader.time_timeText`).  The form
with an offset, which is tried first, takes the text of a value too, but finds no offset behind it.

With this a date passes through a conversion to text and back, through a literal and through the
time column of a replay (`Calendar.roundTrips`).
-/

namespace Telemetry

/-! ### Digits and padded numbers -/

theorem Text.isBlank_of_isDigit {c : Char} (h : c.isDigit = true) : isBlank c = false := by
  have hcode := Number.isDigit_iff.1 h
  simp only [isBlank, Bool.or_eq_false_iff, Bool.and_eq_false_iff, decide_eq_false_iff_not,
    beq_eq_false_iff_ne]
  omega

namespace Number

variable {width n : Nat}

theorem length_padded (hpos : 0 < width) (h : n < 10 ^ width) :
    (padded width n).length = width := by
  have hle := (Nat.length_toDigits_le_iff (b := 10) (by decide) hpos).2 h
  rw [padded, List.length_append, List.length_replicate]
  exact Nat.sub_add_cancel hle

theorem isDigit_of_mem_padded {c : Char} (hc : c ∈ padded width n) : c.isDigit = true := by
  rcases List.mem_append.1 hc with hzero | hdigit
  · rw [List.eq_of_mem_replicate hzero]
    rfl
  · exact (digits_digits n).2 c hdigit

theorem padded_ne_nil (width n : Nat) : padded width n ≠ [] := by
  rw [padded, Ne, List.append_eq_nil_iff, not_and]
  exact fun _ => (digits_digits n).1

/-- A text that begins with a padded number begins with a digit. -/
theorem isDigit_of_head?_padded (width n : Nat) (rest : List Char) :
    ∀ c ∈ (padded width n ++ rest).head?, c.isDigit = true := by
  intro c hc
  rw [List.head?_append_of_ne_nil _ (padded_ne_nil width n)] at hc
  exact isDigit_of_mem_padded (List.mem_of_mem_head? hc)

/-- Zeros in front do not count. -/
theorem digitsValue_padded (width n : Nat) : digitsValue (padded width n) = n := by
  rw [digitsValue, padded, Nat.ofDigitChars_append, Nat.ofDigitChars_replicate_zero, Nat.mul_zero]
  exact Nat.ofDigitChars_toDigits (by decide) (by decide)

end Number

namespace Calendar

variable {t : Instant} {c : Char} {rest : List Char}

/-! ### The characters of dates and times -/

theorem isDigit_of_mem_two {n : Nat} (h : c ∈ two n) : c.isDigit = true :=
  Number.isDigit_of_mem_padded h

/-- The year of an instant has four digits and no sign. -/
theorem yearText_eq (t : Instant) :
    padText .zeros 4 (dateOf t).year = Number.padded 4 (dateOf t).year.toNat := by
  have hyear := year_bounds t
  have hnat : (dateOf t).year.natAbs = (dateOf t).year.toNat := by omega
  show (if (dateOf t).year < 0 then _ else _) = _
  rw [if_neg (by omega), hnat]

theorem mem_dateText (h : c ∈ dateText t) : c.isDigit = true ∨ c = '-' := by
  simp only [dateText, yearText_eq, List.mem_append, List.mem_cons] at h
  rcases h with (hyear | hdash | hmonth) | hdash | hday
  · exact .inl (Number.isDigit_of_mem_padded hyear)
  · exact .inr hdash
  · exact .inl (isDigit_of_mem_two hmonth)
  · exact .inr hdash
  · exact .inl (isDigit_of_mem_two hday)

theorem mem_fractionText (h : c ∈ fractionText t) : c.isDigit = true ∨ c = '.' := by
  rw [fractionText] at h
  split_ifs at h
  · exact absurd h (List.not_mem_nil)
  all_goals exact (List.mem_cons.1 h).symm.imp Number.isDigit_of_mem_padded id

theorem mem_timeText (h : c ∈ timeText t) : c.isDigit = true ∨ c = ':' ∨ c = '.' := by
  simp only [timeText, List.mem_append, List.mem_cons] at h
  rcases h with ((hhour | hcolon | hminute) | hcolon | hsecond) | hfraction
  · exact .inl (isDigit_of_mem_two hhour)
  · exact .inr (.inl hcolon)
  · exact .inl (isDigit_of_mem_two hminute)
  · exact .inr (.inl hcolon)
  · exact .inl (isDigit_of_mem_two hsecond)
  · exact (mem_fractionText hfraction).imp id .inr

/-! ### The parts of an instant -/

theorem month_lt (t : Instant) : (dateOf t).month < 100 := by
  have hmonth := month_bounds t
  omega

theorem day_lt (t : Instant) : (dateOf t).day < 100 := by
  have hday := day_le t
  omega

/-- What is read from the text of an instant. -/
def readingOf (t : Instant) : Reading where
  date := dateOf t
  hour := hourOf t
  minute := minuteOf t
  second := secondOf t
  nano := nanoOf t

theorem Reading.isValid_iff {r : Reading} :
    r.isValid = true ↔
      r.date.isValid = true ∧ r.hour ≤ 23 ∧ r.minute ≤ 59 ∧ r.second ≤ 60 := by
  simp only [isValid, Bool.and_eq_true, decide_eq_true_eq, and_assoc]

theorem isValid_readingOf (t : Instant) : (readingOf t).isValid = true :=
  Reading.isValid_iff.2
    ⟨isValid_dateOf t, Nat.le_of_lt_succ (hourOf_lt t),
      Nat.le_of_lt_succ (minuteOf_lt t), Nat.le_of_lt (secondOf_lt t)⟩

/-- The parts of an instant make it up. -/
theorem instant?_readingOf (t : Instant) : (readingOf t).instant? = some t := by
  have hday := toDay_dateOf t
  have htime : (hourOf t * 3600 + minuteOf t * 60 + secondOf t - 0 : Int) * nanosPerSecond +
      nanoOf t = timeOf t := by
    rw [timeOf_eq]
    simp only [nanosPerHour, nanosPerMinute, nanosPerSecond]
    omega
  show instant? (dateOf t).toDay _ = _
  rw [hday]
  exact (congrArg (instant? (dayOf t)) htime).trans (instant?_dayOf_timeOf t)

/-! ### Readers of parts -/

namespace Reader

/-- A reader that goes on where another stopped. -/
theorem bind_eq {α β : Type} {r : Reader α} {f : α → Reader β} {cs : List Char} {a : α}
    (h : r cs = some (a, rest)) : (r >>= f) cs = f a rest := by
  show (r cs).bind _ = _
  rw [h]
  rfl

theorem bind_eq_none {α β : Type} {r : Reader α} {f : α → Reader β} {cs : List Char}
    (h : r cs = none) : (r >>= f) cs = none := by
  show (r cs).bind _ = _
  rw [h]
  rfl

theorem char_cons (c : Char) (rest : List Char) : char c (c :: rest) = some ((), rest) := if_pos rfl

/-- Blanks are not looked for behind a character that is none. -/
theorem blanks_of_head (h : ∀ c ∈ rest.head?, Text.isBlank c = false) :
    blanks rest = some ((), rest) := by
  cases rest with
  | nil => rfl
  | cons c rest => exact congrArg (fun cs => some ((), cs)) (Text.trimStart_of_head (h c rfl))

/-- As many digits as may be taken are taken, even if more follow. -/
theorem number_padded {least width n : Nat} (hpos : 0 < width) (hleast : least ≤ width)
    (h : n < 10 ^ width) (rest : List Char) :
    number least width (Number.padded width n ++ rest) = some (n, rest) := by
  have hlength := Number.length_padded hpos h
  have hdigits : ((Number.padded width n ++ rest).take width).takeWhile Char.isDigit =
      Number.padded width n := by
    rw [List.take_left' hlength]
    exact List.takeWhile_eq_self_iff.2 fun _ hc => Number.isDigit_of_mem_padded hc
  rw [number, hdigits, hlength, if_neg (by omega), List.drop_left' hlength,
    Number.digitsValue_padded]

/-- A number in two digits, whether blanks may precede it or not. -/
theorem number_two {n : Nat} (h : n < 100) (rest : List Char) :
    number 2 2 (two n ++ rest) = some (n, rest) :=
  number_padded (by decide) (by decide) h rest

theorem blanks_padded (width n : Nat) (rest : List Char) :
    blanks (Number.padded width n ++ rest) = some ((), Number.padded width n ++ rest) :=
  blanks_of_head fun c hc =>
    Text.isBlank_of_isDigit (Number.isDigit_of_head?_padded width n rest c hc)

theorem loose_two {n : Nat} (h : n < 100) (rest : List Char) :
    loose 2 (two n ++ rest) = some (n, rest) := by
  rw [loose, two, bind_eq (blanks_padded 2 n rest)]
  exact number_padded (by decide) (by decide) h rest

/-- A year that begins with a digit has four digits at most. -/
theorem year_of_head {cs : List Char} (h : ∀ c ∈ cs.head?, c.isDigit = true) :
    year cs = (number 1 4 cs).map fun (y, rest) => ((y : Int), rest) := by
  have hblanks := blanks_of_head fun c hc => Text.isBlank_of_isDigit (h c hc)
  have hget : (get : Reader (List Char)) cs = some (cs, cs) := rfl
  rw [year, bind_eq hblanks, bind_eq hget]
  split
  · cases h _ rfl
  · cases h _ rfl
  · cases hnumber : number 1 4 cs with
    | none => exact bind_eq_none hnumber
    | some taken => exact bind_eq hnumber

theorem year_padded {n : Nat} (h : n < 10000) (rest : List Char) :
    year (Number.padded 4 n ++ rest) = some ((n : Int), rest) := by
  rw [year_of_head (Number.isDigit_of_head?_padded 4 n rest),
    number_padded (by decide) (by decide) h]
  rfl

theorem fraction_padded {width n : Nat} (hpos : 0 < width) (hmost : width ≤ 9) (h : n < 10 ^ width)
    (hrest : ∀ c ∈ rest.head?, c.isDigit = false) :
    fraction ('.' :: (Number.padded width n ++ rest)) = some (n * 10 ^ (9 - width), rest) := by
  have hlength := Number.length_padded hpos h
  have hdigits : (Number.padded width n ++ rest).takeWhile Char.isDigit = Number.padded width n :=
    takeWhile_append_of_stop (fun _ hc => Number.isDigit_of_mem_padded hc) hrest
  have hsome : (Number.padded width n).isEmpty = false :=
    List.isEmpty_eq_false_iff.2 (Number.padded_ne_nil width n)
  have htake : (Number.padded width n).take 9 = Number.padded width n :=
    List.take_of_length_le (by omega)
  unfold fraction
  simp only [bind, StateT.bind, get, getThe, MonadStateOf.get, StateT.get, pure, Option.bind_some,
    set, StateT.set, hdigits, hsome, htake, hlength, Number.digitsValue_padded]
  rw [if_neg (by decide), List.drop_left' hlength]
  rfl

/-- The fraction is taken whole, if neither a digit nor a point follows. -/
theorem fraction_fractionText (t : Instant)
    (hrest : ∀ c ∈ rest.head?, c.isDigit = false ∧ c ≠ '.') :
    fraction (fractionText t ++ rest) = some (nanoOf t, rest) := by
  have hnano := nanoOf_lt t
  have hdigit : ∀ c ∈ rest.head?, c.isDigit = false := fun c hc => (hrest c hc).1
  rw [fractionText]
  split_ifs with hzero
  · have hget : (get : Reader (List Char)) rest = some (rest, rest) := rfl
    rw [List.nil_append, fraction, bind_eq hget, hzero]
    split
    · exact absurd rfl (hrest _ rfl).2
    · rfl
  all_goals
    rw [List.cons_append, fraction_padded (by decide) (by decide) (by omega) hdigit]
    exact congrArg (fun nano => some (nano, rest)) (by omega)

/-! ### Readers of dates and times -/

/-- **The date that was written is read**, whatever follows it. -/
theorem date_dateText (t : Instant) (rest : List Char) :
    date (dateText t ++ rest) = some (dateOf t, rest) := by
  have hyear := year_bounds t
  have hcast : (((dateOf t).year.toNat : Nat) : Int) = (dateOf t).year := by omega
  simp only [dateText, yearText_eq, List.append_assoc, List.cons_append]
  rw [date, bind_eq (year_padded (by omega) _), bind_eq (char_cons '-' _),
    bind_eq (loose_two (month_lt t) _), bind_eq (char_cons '-' _), bind_eq (loose_two (day_lt t) _),
    hcast]
  rfl

/-- **The time that was written is read**, if neither a digit nor a point follows it. -/
theorem time_timeText (t : Instant) (rest : List Char)
    (hrest : ∀ c ∈ rest.head?, c.isDigit = false ∧ c ≠ '.') :
    time (dateOf t) (timeText t ++ rest) = some (readingOf t, rest) := by
  have hhour := hourOf_lt t
  have hminute := minuteOf_lt t
  have hsecond := secondOf_lt t
  simp only [timeText, List.append_assoc, List.cons_append]
  rw [time, bind_eq (loose_two (by omega) _), bind_eq (char_cons ':' _),
    bind_eq (loose_two (by omega) _), bind_eq (char_cons ':' _), bind_eq (loose_two (by omega) _),
    bind_eq (fraction_fractionText t hrest)]
  rfl

/-- The form with an offset takes every written date and time, and then looks for the offset. -/
theorem withOffset_eq (t : Instant) (rest : List Char) {mark : Char}
    (hmark : mark = 'T' ∨ mark = ' ')
    (hrest : ∀ c ∈ rest.head?, c.isDigit = false ∧ c ≠ '.') :
    withOffset (dateText t ++ mark :: (timeText t ++ rest)) =
      (offset rest).map fun (offset, rest) => ({ readingOf t with offset }, rest) := by
  have hyear := year_bounds t
  have hcast : (((dateOf t).year.toNat : Nat) : Int) = (dateOf t).year := by omega
  have hhour := hourOf_lt t
  have hminute := minuteOf_lt t
  have hsecond := secondOf_lt t
  have hmarked : ∀ cs, (char 'T' <|> char 't' <|> char ' ') (mark :: cs) = some ((), cs) := by
    intro cs
    rcases hmark with rfl | rfl <;> rfl
  simp only [dateText, timeText, yearText_eq, List.append_assoc, List.cons_append]
  rw [withOffset, bind_eq (number_padded (by decide) (by decide) (by omega) _),
    bind_eq (char_cons '-' _), bind_eq (number_two (month_lt t) _), bind_eq (char_cons '-' _),
    bind_eq (number_two (day_lt t) _), bind_eq (hmarked _), bind_eq (number_two (by omega) _),
    bind_eq (char_cons ':' _), bind_eq (number_two (by omega) _), bind_eq (char_cons ':' _),
    bind_eq (number_two (by omega) _), bind_eq (fraction_fractionText t hrest), hcast]
  cases h : offset rest with
  | none => exact bind_eq_none h
  | some taken => exact bind_eq h

end Reader

/-! ### Texts of instants -/

theorem form?_eq {reader : Reader Reading} {cs : List Char}
    (h : reader cs = some (readingOf t, [])) :
    form? reader cs = some (readingOf t) := by
  rw [form?, h]
  exact if_pos (isValid_readingOf t)

theorem isBlank_head_dateText (t : Instant) (rest : List Char) :
    ∀ c ∈ (dateText t ++ rest).head?, Text.isBlank c = false := by
  simp only [dateText, yearText_eq, List.append_assoc]
  exact fun c hc => Text.isBlank_of_isDigit (Number.isDigit_of_head?_padded 4 _ _ c hc)

theorem isBlank_of_mem_timeText (h : c ∈ timeText t) : Text.isBlank c = false := by
  rcases mem_timeText h with hdigit | rfl | rfl
  · exact Text.isBlank_of_isDigit hdigit
  · rfl
  · rfl

/-- The text of an instant as a value has no blanks at its ends, although there is one in it. -/
theorem trim_valueText (t : Instant) : Text.trim (valueText t) = valueText t := by
  refine Text.trim_of_ends (isBlank_head_dateText t _) fun c hc =>
    isBlank_of_mem_timeText (t := t) ?_
  have hsome : timeText t ≠ [] := by
    rw [timeText]
    simp
  obtain ⟨front, last, hlast⟩ : ∃ front last, timeText t = front ++ [last] :=
    ⟨_, _, (List.dropLast_append_getLast hsome).symm⟩
  rw [valueText, hlast, ← List.cons_append, ← List.append_assoc, List.getLast?_concat] at hc
  rw [hlast, ← Option.some.inj hc]
  exact List.mem_append_right _ List.mem_cons_self

/-- **The text of an instant as a value is read as this instant.** -/
theorem parse?_valueText (t : Instant) : parse? (valueText t) = some t := by
  have hoffset : form? Reader.withOffset (valueText t) = none := by
    have hread := Reader.withOffset_eq t [] (.inr rfl) (by simp)
    rw [List.append_nil] at hread
    rw [form?, valueText, hread]
    rfl
  have hspaced : form? Reader.spaced (valueText t) = some (readingOf t) := by
    refine form?_eq ?_
    have hblanks : Reader.blanks (' ' :: timeText t) = some ((), timeText t) :=
      Reader.blanks_of_head fun c hc => isBlank_of_mem_timeText (List.mem_of_mem_head? hc)
    have htime := Reader.time_timeText t [] (by simp)
    rw [List.append_nil] at htime
    rw [Reader.spaced, valueText, Reader.bind_eq (Reader.date_dateText t _),
      Reader.bind_eq hblanks, htime]
  rw [parse?, trim_valueText]
  simp only [List.findSome?_cons, hoffset, hspaced]
  exact instant?_readingOf t

example : (String.ofList (valueText Int64.minValue), String.ofList (valueText Int64.maxValue)) =
    ("1677-09-21 00:12:43.145224192", "2262-04-11 23:47:16.854775807") := by
  decide +kernel

theorem trim_recordText (t : Instant) : Text.trim (recordText t) = recordText t := by
  refine Text.trim_of_ends ?_ fun c hc => ?_
  · rw [recordText, List.append_assoc]
    exact isBlank_head_dateText t _
  · rw [recordText, List.getLast?_concat] at hc
    exact Option.some.inj hc ▸ rfl

/-- **The time of a record is read as this time.** -/
theorem parse?_recordText (t : Instant) : parse? (recordText t) = some t := by
  have hoffset : form? Reader.withOffset (recordText t) = some (readingOf t) := by
    refine form?_eq ?_
    rw [recordText, List.append_assoc, List.cons_append]
    exact Reader.withOffset_eq t ['Z'] (.inl rfl) (by simp)
  rw [parse?, trim_recordText]
  simp only [List.findSome?_cons, hoffset]
  exact instant?_readingOf t

end Calendar

/-! ### Ways through text -/

/-- What begins with a hash sign and has the next one at its end is one item. -/
theorem Source.items_dated {cs : List Char} (h : '#' ∉ cs) :
    items ('#' :: (cs ++ ['#'])) = .ok ['#' :: (cs ++ ['#'])] := items_of_item (.date h)

namespace Calendar

theorem hash_notMem_valueText (t : Instant) : '#' ∉ valueText t := by
  intro hmem
  rcases List.mem_append.1 hmem with hdate | htime
  · rcases mem_dateText hdate with hdigit | heq
    · cases hdigit
    · cases heq
  · rcases List.mem_cons.1 htime with heq | htime
    · cases heq
    · rcases mem_timeText htime with hdigit | heq | heq
      · cases hdigit
      · cases heq
      · cases heq

/-- The time of a record is no number of nanoseconds. -/
theorem readWord_recordText (t : Instant) :
    ∃ fault, Number.readWord (recordText t) = .error fault := by
  cases hread : Number.readWord (recordText t) with
  | error fault => exact ⟨fault, rfl⟩
  | ok w =>
      have hmem : 'T' ∈ recordText t := by simp [recordText]
      rcases (Number.integerForm_of_readWord hread).number.mem hmem with hdigit | hmark
      · cases hdigit
      · exact absurd hmark (by decide)

end Calendar

namespace Replay

/-- A cell that is no number of nanoseconds is read as a date and time. -/
theorem time?_of_fault {cs : List Char} {fault : Number.IntegerFault}
    (h : Number.readWord (Text.trim cs) = .error fault) :
    time? cs = Calendar.parse? (Text.trim cs) := by
  simp only [time?, h]

/-- **The time that a replay writes is the time that it reads.** -/
theorem time?_stamp (t : Instant) : time? (stamp t) = some t := by
  obtain ⟨fault, hword⟩ := Calendar.readWord_recordText t
  have htrim : Text.trim (stamp t) = stamp t := Calendar.trim_recordText t
  have hread : Number.readWord (Text.trim (stamp t)) = .error fault := by
    rw [htrim]
    exact hword
  rw [time?_of_fault hread, htrim]
  exact Calendar.parse?_recordText t

end Replay

namespace Conversion

/-- The functions that convert to text and back to a date. -/
def throughText : List Token :=
  [.function (.operator (.conversion .toText)), .function (.operator (.conversion .toDate))]

theorem date_text {function s : String} {t : Instant} (h : Calendar.parse? s.toList = some t) :
    date function (.text s) = .ok (.date t) := by
  rw [date, h]

/-- **A date that is converted to text and back is this date**, on any stack and at any time. -/
theorem walk_throughText (t time : Instant) (table : VariableTable) (key : Option Int64)
    (stack : Stack) :
    walk table key throughText (stack.push ⟨.date t, time⟩) =
      ⟨throughText, 2, [], .ok (stack.push ⟨.date t, time⟩)⟩ := by
  have hparse : Calendar.parse? (String.ofList (Calendar.valueText t)).toList = some t := by
    rw [String.toList_ofList, Calendar.parse?_valueText]
  have htext := Operator.step_of_one (.conversion .toText)
    (f := fun a => .ok (.text a.toText)) rfl (v := .date t)
    (w := .text (String.ofList (Calendar.valueText t))) rfl table key stack time
  have hback := Operator.step_of_one (.conversion .toDate) (f := date toDate.name) rfl
    (date_text hparse) table key stack time
  simp only [throughText, walk, htext, hback]
  rfl

end Conversion

/-- **Dates survive the ways through text**: as a value, through the conversions, as a literal,
which is one item of a source text, and as the time of a record in what a replay writes. -/
theorem Calendar.roundTrips (t : Instant) :
    parse? (valueText t) = some t ∧
      (∀ (time : Instant) (table : VariableTable) (key : Option Int64) (stack : Stack),
        walk table key Conversion.throughText (stack.push ⟨.date t, time⟩) =
          ⟨Conversion.throughText, 2, [], .ok (stack.push ⟨.date t, time⟩)⟩) ∧
      Source.items ('#' :: (valueText t ++ ['#'])) = .ok ['#' :: (valueText t ++ ['#'])] ∧
      Literal.parse? ('#' :: (valueText t ++ ['#'])) = .ok (some (.date t)) ∧
      Replay.time? (Replay.stamp t) = some t := by
  refine ⟨parse?_valueText t, Conversion.walk_throughText t,
    Source.items_dated (hash_notMem_valueText t), ?_, Replay.time?_stamp t⟩
  rw [Literal.parse?_date, parse?_valueText]

end Telemetry
