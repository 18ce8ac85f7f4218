import Telemetry.Literal
import Telemetry.Proofs.Numerals

/-!
# The grammar of literals

Which texts are literals, said by a grammar (`Form`), and which literals have no value
(`Valueless`).  The reader of literals tells six shapes apart (`Shape`), each by its own test, and
the shapes are wider than the grammar in two places: a number may be written in digits of any
script (`ForeignNumber`), which no reader of numbers accepts, and a text between quotes may have an
inner quote that is not doubled (`LooseText`), which is read as it stands.

* `shape_iff`: the shapes are the forms of the grammar and these two.
* `parse?_eq_none_iff`: a text is no literal for the reader exactly if it has no shape.
* `fault_iff`: the faults are the literals without a value and the numbers in other digits.
* `parse?_forms`: so the reader follows the grammar on every text but the numbers in other digits
  and the loose texts, which `forms_of_three_and_loose` shows at one text each.
-/

namespace Telemetry.Literal

open Number

/-! ### The grammar -/

/-- A text with every quote doubled. -/
def doubled (s : List Char) : List Char := s.flatMap fun c => if c = '"' then ['"', '"'] else [c]

theorem doubled_cons (c : Char) (s : List Char) :
    doubled (c :: s) = (if c = '"' then ['"', '"'] else [c]) ++ doubled s := List.flatMap_cons

/-- The forms of literals. -/
inductive Form : List Char → Prop
  | integer {item : List Char} (h : IntegerForm Char.isDigit item) : Form item
  | number {item : List Char} (h : NumberForm Char.isDigit item) : Form item
  | hexadecimal {mark : Char} {ds : List Char} (hmark : mark = 'h' ∨ mark = 'H')
      (hds : Digits isHexDigit ds) : Form ('&' :: mark :: ds)
  | binary {mark : Char} {ds : List Char} (hmark : mark = 'b' ∨ mark = 'B')
      (hds : Digits isBit ds) : Form ('&' :: mark :: ds)
  | text (s : List Char) : Form ('"' :: (doubled s ++ ['"']))
  | date (inner : List Char) : Form ('#' :: (inner ++ ['#']))

/-- The literals without a value: integers that are no words, digits of more than 64 bits, and
texts between hash signs that are no dates. -/
inductive Valueless : List Char → Prop
  | integer {sign ds : List Char} (hsign : Sign sign) (hds : Digits Char.isDigit ds)
      (hrange : Word.ofInt? (withSign sign (spelled 10 0 ds)) = none) : Valueless (sign ++ ds)
  | hexadecimal {mark : Char} {ds : List Char} (hmark : mark = 'h' ∨ mark = 'H')
      (hds : Digits isHexDigit ds) (hsize : Word.count ≤ spelled 16 0 ds) :
      Valueless ('&' :: mark :: ds)
  | binary {mark : Char} {ds : List Char} (hmark : mark = 'b' ∨ mark = 'B')
      (hds : Digits isBit ds) (hsize : Word.count ≤ spelled 2 0 ds) : Valueless ('&' :: mark :: ds)
  | date {inner : List Char} (hdate : Calendar.parse? inner = none) :
      Valueless ('#' :: (inner ++ ['#']))

/-- A number with a digit that is not ASCII. -/
def ForeignNumber (item : List Char) : Prop :=
  NumberForm Text.isDecimal item ∧ ∃ c ∈ item, Text.isDecimal c = true ∧ c.isDigit = false

/-- A text between quotes with an inner quote that is not doubled. -/
def LooseText (item : List Char) : Prop :=
  ∃ inner, item = '"' :: (inner ++ ['"']) ∧ ∀ s, inner ≠ doubled s

/-- The shapes that the reader tells apart. -/
inductive Shape : List Char → Prop
  | integer {item : List Char} (h : IntegerForm Text.isDecimal item) : Shape item
  | number {item : List Char} (h : NumberForm Text.isDecimal item)
      (hinteger : ¬ IntegerForm Text.isDecimal item) : Shape item
  | hexadecimal {mark : Char} {ds : List Char} (hmark : mark = 'h' ∨ mark = 'H')
      (hds : Digits isHexDigit ds) : Shape ('&' :: mark :: ds)
  | binary {mark : Char} {ds : List Char} (hmark : mark = 'b' ∨ mark = 'B')
      (hds : Digits isBit ds) : Shape ('&' :: mark :: ds)
  | text (inner : List Char) : Shape ('"' :: (inner ++ ['"']))
  | date (inner : List Char) : Shape ('#' :: (inner ++ ['#']))

/-! ### Digits of any script -/

theorem isDecimal_marks : ∀ c ∈ marks, Text.isDecimal c = false := by
  have hall : (marks.all fun c => !Text.isDecimal c) = true := by decide
  simpa only [List.all_eq_true, Bool.not_eq_true'] using hall

theorem isDecimal_initials : ∀ c ∈ initials, Text.isDecimal c = false := by
  have hall : (initials.all fun c => !Text.isDecimal c) = true := by decide
  simpa only [List.all_eq_true, Bool.not_eq_true'] using hall

/-- A number in ASCII digits has no digit that is not ASCII. -/
theorem isDigit_of_number {item : List Char} (h : NumberForm Char.isDigit item) :
    ∀ c ∈ item, Text.isDecimal c = true → c.isDigit = true := by
  intro c hc hdecimal
  rcases h.mem hc with hdigit | hmark
  · exact hdigit
  · exact absurd hdecimal (ne_true_of_eq_false (isDecimal_marks c hmark))

/-- A number in digits of any script has only ASCII digits or is a foreign one. -/
theorem foreign_or_ascii {item : List Char} (h : NumberForm Text.isDecimal item) :
    ForeignNumber item ∨ ∀ c ∈ item, Text.isDecimal c = true → c.isDigit = true := by
  by_cases hforeign : ∃ c ∈ item, Text.isDecimal c = true ∧ c.isDigit = false
  · exact Or.inl ⟨h, hforeign⟩
  · refine Or.inr fun c hc hdecimal => ?_
    by_contra hdigit
    exact hforeign ⟨c, hc, hdecimal, Bool.not_eq_true _ ▸ hdigit⟩

theorem ForeignNumber.not_number {item : List Char} (h : ForeignNumber item) :
    ¬ NumberForm Char.isDigit item := by
  obtain ⟨-, c, hc, hdecimal, hdigit⟩ := h
  exact fun hnumber =>
    absurd (isDigit_of_number hnumber c hc hdecimal) (ne_true_of_eq_false hdigit)

/-- A number in digits of any script has one of the first two shapes. -/
theorem Shape.of_number {item : List Char} (h : NumberForm Text.isDecimal item) : Shape item := by
  by_cases hinteger : IntegerForm Text.isDecimal item
  · exact .integer hinteger
  · exact .number h hinteger

/-- **The shapes** are the forms, the foreign numbers and the loose texts. -/
theorem shape_iff {item : List Char} :
    Shape item ↔ Form item ∨ ForeignNumber item ∨ LooseText item := by
  constructor
  · intro h
    cases h with
    | integer h =>
        rcases foreign_or_ascii h.number with hforeign | hascii
        · exact Or.inr (Or.inl hforeign)
        · exact Or.inl (.integer (h.mono hascii))
    | number h _ =>
        rcases foreign_or_ascii h with hforeign | hascii
        · exact Or.inr (Or.inl hforeign)
        · exact Or.inl (.number (h.mono hascii))
    | hexadecimal hmark hds => exact Or.inl (.hexadecimal hmark hds)
    | binary hmark hds => exact Or.inl (.binary hmark hds)
    | text inner =>
        by_cases hdoubled : ∃ s, inner = doubled s
        · obtain ⟨s, rfl⟩ := hdoubled
          exact Or.inl (.text s)
        · exact Or.inr (Or.inr ⟨inner, rfl, fun s h => hdoubled ⟨s, h⟩⟩)
    | date inner => exact Or.inl (.date inner)
  · rintro (h | h | ⟨inner, rfl, -⟩)
    · cases h with
      | integer h => exact .integer (h.mono fun c _ => Text.isDecimal_of_isDigit)
      | number h => exact .of_number (h.mono fun c _ => Text.isDecimal_of_isDigit)
      | hexadecimal hmark hds => exact .hexadecimal hmark hds
      | binary hmark hds => exact .binary hmark hds
      | text s => exact .text (doubled s)
      | date inner => exact .date inner
    · exact .of_number h.1
    · exact .text inner

/-! ### What the reader says of each shape -/

/-- The value of an integer that was read, or the fault. -/
def ofWord (item : List Char) : Except IntegerFault Int64 → Outcome (Option Value)
  | .ok i => .ok (some (.int i))
  | .error fault => .error (.parse (String.ofList item) fault.message)

theorem ofWord_ne_none (item : List Char) (read : Except IntegerFault Int64) :
    ofWord item read ≠ .ok none := by
  cases read <;> exact fun h => nomatch h

theorem ofWord_fault_iff {item : List Char} {read : Except IntegerFault Int64} :
    (∃ fault, ofWord item read = .error fault) ↔ read.toOption = none := by
  cases read with
  | ok i =>
      constructor
      · rintro ⟨fault, h⟩
        cases h
      · intro h
        cases h
  | error fault => exact ⟨fun _ => rfl, fun _ => ⟨_, rfl⟩⟩

section Shapes

variable {item ds inner : List Char} {mark : Char}

theorem parse?_integer (h : IntegerForm Text.isDecimal item) :
    parse? item = ofWord item (readWord item) := by
  rw [parse?]
  dsimp only
  refine (if_pos ((isInteger_iff isDecimal_marks).2 h)).trans ?_
  cases readWord item <;> rfl

theorem parse?_number (h : NumberForm Text.isDecimal item)
    (hinteger : ¬ IntegerForm Text.isDecimal item) :
    parse? item =
      match float? item with
      | some x => .ok (some (.float x))
      | none => .error (.parse (String.ofList item) "invalid float literal") := by
  rw [parse?]
  dsimp only
  rw [if_neg (mt (isInteger_iff isDecimal_marks).1 hinteger)]
  refine (if_pos ((isNumber_iff isDecimal_marks).2 h)).trans ?_
  cases float? item <;> rfl

/-- What starts with another mark is no number. -/
theorem not_number_of_head (hmark : mark ∈ ['&', '"', '#']) :
    ¬ NumberForm Text.isDecimal (mark :: item) := by
  have hall : (['&', '"', '#'].all fun c => !Text.isDecimal c && !marks.contains c) = true := by
    decide
  have hapart := List.all_eq_true.1 hall mark hmark
  rw [Bool.and_eq_true, Bool.not_eq_true', Bool.not_eq_true', List.contains_eq_mem,
    decide_eq_false_iff_not] at hapart
  intro h
  rcases h.mem List.mem_cons_self with hdigit | hmem
  · exact absurd hdigit (ne_true_of_eq_false hapart.1)
  · exact hapart.2 hmem

/-- What the reader says of a text that is no number. -/
theorem parse?_of_not_number (h : ¬ NumberForm Text.isDecimal item) :
    parse? item =
      match radixDigits? 16 'h' 'H' item, radixDigits? 2 'b' 'B' item with
      | some ds, _ => ofWord item (readBits 16 ds)
      | none, some ds => ofWord item (readBits 2 ds)
      | none, none =>
        match between? '"' item, between? '#' item with
        | some inner, _ =>
          .ok (some (.text (String.ofList (Text.replaceAll ['"', '"'] ['"'] inner))))
        | none, some inner =>
          match Calendar.parse? inner with
          | some t => .ok (some (.date t))
          | none => .error (.parse (String.ofList item) "invalid date literal")
        | none, none => .ok none := by
  have hinteger : ¬ IntegerForm Text.isDecimal item := fun hform => h hform.number
  rw [parse?]
  dsimp only
  rw [if_neg (mt (isInteger_iff isDecimal_marks).1 hinteger)]
  exact if_neg (mt (isNumber_iff isDecimal_marks).1 h)

theorem radixDigits?_eq_some_iff {base : Nat} {lower upper : Char} :
    radixDigits? base lower upper item = some ds ↔
      ∃ mark, (mark = lower ∨ mark = upper) ∧ Digits (fun c => (digitValue? base c).isSome) ds ∧
        item = '&' :: mark :: ds := by
  rw [radixDigits?.eq_def]
  split
  · rename_i mark rest
    split
    · rename_i hform
      constructor
      · intro h
        cases h
        exact ⟨mark, hform.1, ⟨hform.2.1, List.all_eq_true.1 hform.2.2⟩, rfl⟩
      · rintro ⟨mark', -, -, h⟩
        cases h
        rfl
    · rename_i hform
      constructor
      · intro h
        cases h
      · rintro ⟨mark', hmark, hds, h⟩
        cases h
        exact absurd ⟨hmark, hds.1, List.all_eq_true.2 hds.2⟩ hform
  · rename_i hother
    constructor
    · intro h
      cases h
    · rintro ⟨mark', -, -, h⟩
      exact absurd h (hother _ _)

theorem between?_eq_some_iff :
    between? mark item = some inner ↔ item = mark :: (inner ++ [mark]) := by
  cases item with
  | nil =>
      constructor
      · intro h
        cases h
      · intro h
        cases h
  | cons c cs =>
      rw [between?]
      constructor
      · intro h
        split at h
        · rename_i hform
          cases h
          obtain ⟨front, hfront⟩ := List.getLast?_eq_some_iff.1 hform.2
          rw [hform.1, hfront, List.dropLast_concat]
        · cases h
      · intro h
        cases h
        rw [if_pos ⟨rfl, List.getLast?_concat⟩, List.dropLast_concat]

theorem hexDigits_iff :
    Digits (fun c => (digitValue? 16 c).isSome) ds ↔ Digits isHexDigit ds := by
  simp only [Digits, isSome_digitValue?_sixteen]

theorem bits_iff : Digits (fun c => (digitValue? 2 c).isSome) ds ↔ Digits isBit ds := by
  simp only [Digits, isSome_digitValue?_two]

theorem parse?_hexadecimal (hmark : mark = 'h' ∨ mark = 'H') (hds : Digits isHexDigit ds) :
    parse? ('&' :: mark :: ds) = ofWord ('&' :: mark :: ds) (readBits 16 ds) := by
  have hsome : radixDigits? 16 'h' 'H' ('&' :: mark :: ds) = some ds :=
    radixDigits?_eq_some_iff.2 ⟨mark, hmark, hexDigits_iff.2 hds, rfl⟩
  rw [parse?_of_not_number (not_number_of_head (by decide)), hsome]

theorem parse?_binary (hmark : mark = 'b' ∨ mark = 'B') (hds : Digits isBit ds) :
    parse? ('&' :: mark :: ds) = ofWord ('&' :: mark :: ds) (readBits 2 ds) := by
  have hnone : radixDigits? 16 'h' 'H' ('&' :: mark :: ds) = none := by
    refine Option.eq_none_iff_forall_ne_some.2 fun ds' h => ?_
    obtain ⟨mark', hmark', -, heq⟩ := radixDigits?_eq_some_iff.1 h
    cases heq
    rcases hmark with rfl | rfl <;> exact absurd hmark' (by decide)
  have hsome : radixDigits? 2 'b' 'B' ('&' :: mark :: ds) = some ds :=
    radixDigits?_eq_some_iff.2 ⟨mark, hmark, bits_iff.2 hds, rfl⟩
  rw [parse?_of_not_number (not_number_of_head (by decide)), hnone, hsome]

theorem parse?_text (inner : List Char) :
    parse? ('"' :: (inner ++ ['"'])) =
      .ok (some (.text (String.ofList (Text.replaceAll ['"', '"'] ['"'] inner)))) := by
  have hsome : between? '"' ('"' :: (inner ++ ['"'])) = some inner := between?_eq_some_iff.2 rfl
  rw [parse?_of_not_number (not_number_of_head (by decide)), hsome]
  rfl

theorem parse?_date (inner : List Char) :
    parse? ('#' :: (inner ++ ['#'])) =
      match Calendar.parse? inner with
      | some t => .ok (some (.date t))
      | none =>
        .error (.parse (String.ofList ('#' :: (inner ++ ['#']))) "invalid date literal") := by
  have hnone : between? '"' ('#' :: (inner ++ ['#'])) = none := by
    refine Option.eq_none_iff_forall_ne_some.2 fun inner' h => ?_
    cases between?_eq_some_iff.1 h
  have hsome : between? '#' ('#' :: (inner ++ ['#'])) = some inner := between?_eq_some_iff.2 rfl
  rw [parse?_of_not_number (not_number_of_head (by decide)), hnone, hsome]
  rfl

/-- What has no shape is no literal. -/
theorem parse?_of_not_shape (h : ¬ Shape item) : parse? item = .ok none := by
  have hnumber : ¬ NumberForm Text.isDecimal item := fun hform => h (.of_number hform)
  have hhexadecimal : radixDigits? 16 'h' 'H' item = none := by
    refine Option.eq_none_iff_forall_ne_some.2 fun ds hsome => ?_
    obtain ⟨mark, hmark, hds, rfl⟩ := radixDigits?_eq_some_iff.1 hsome
    exact h (.hexadecimal hmark (hexDigits_iff.1 hds))
  have hbinary : radixDigits? 2 'b' 'B' item = none := by
    refine Option.eq_none_iff_forall_ne_some.2 fun ds hsome => ?_
    obtain ⟨mark, hmark, hds, rfl⟩ := radixDigits?_eq_some_iff.1 hsome
    exact h (.binary hmark (bits_iff.1 hds))
  have htext : between? '"' item = none := by
    refine Option.eq_none_iff_forall_ne_some.2 fun inner hsome => ?_
    obtain rfl := between?_eq_some_iff.1 hsome
    exact h (.text inner)
  have hdate : between? '#' item = none := by
    refine Option.eq_none_iff_forall_ne_some.2 fun inner hsome => ?_
    obtain rfl := between?_eq_some_iff.1 hsome
    exact h (.date inner)
  rw [parse?_of_not_number hnumber, hhexadecimal, hbinary, htext, hdate]

/-- **No literal is what has no shape.** -/
theorem parse?_eq_none_iff : parse? item = .ok none ↔ ¬ Shape item := by
  refine ⟨fun hnone hshape => ?_, parse?_of_not_shape⟩
  cases hshape with
  | integer h =>
      rw [parse?_integer h] at hnone
      exact ofWord_ne_none _ _ hnone
  | number h hinteger =>
      rw [parse?_number h hinteger] at hnone
      split at hnone <;> cases hnone
  | hexadecimal hmark hds =>
      rw [parse?_hexadecimal hmark hds] at hnone
      exact ofWord_ne_none _ _ hnone
  | binary hmark hds =>
      rw [parse?_binary hmark hds] at hnone
      exact ofWord_ne_none _ _ hnone
  | text inner =>
      rw [parse?_text] at hnone
      cases hnone
  | date inner =>
      rw [parse?_date] at hnone
      split at hnone <;> cases hnone

end Shapes

/-! ### Faults -/

section Faults

variable {item : List Char}

/-- Digits of a base have too many bits for a word if they are not read. -/
theorem toOption_readBits_eq_none_iff {base : Nat} {ds : List Char} (hbase : 0 < base)
    (hds : Digits (fun c => (digitValue? base c).isSome) ds) :
    (readBits base ds).toOption = none ↔ Word.count ≤ spelled base 0 ds := by
  rw [toOption_readBits hbase hds, ← Nat.not_lt]
  by_cases hsize : spelled base 0 ds < Word.count
  · rw [if_pos hsize]
    exact ⟨fun h => absurd h (Option.some_ne_none _), fun h => absurd hsize h⟩
  · rw [if_neg hsize]
    exact ⟨fun _ => hsize, fun _ => rfl⟩

/-- A foreign number is a fault. -/
theorem fault_of_foreign (h : ForeignNumber item) : ∃ fault, parse? item = .error fault := by
  by_cases hinteger : IntegerForm Text.isDecimal item
  · rw [parse?_integer hinteger, ofWord_fault_iff]
    cases hread : readWord item with
    | ok w => exact absurd (integerForm_of_readWord hread).number h.not_number
    | error fault => rfl
  · rw [parse?_number h.1 hinteger]
    cases hread : float? item with
    | some x =>
        exact absurd (number_of_isSome_float? isDecimal_marks isDecimal_initials h.1
          (Option.isSome_of_eq_some hread)) h.not_number
    | none => exact ⟨_, rfl⟩

/-- A literal without a value is a fault. -/
theorem fault_of_valueless (h : Valueless item) : ∃ fault, parse? item = .error fault := by
  cases h with
  | integer hsign hds hrange =>
      have hform : IntegerForm Char.isDigit _ := .mk hsign hds
      rw [parse?_integer (hform.mono fun c _ => Text.isDecimal_of_isDigit), ofWord_fault_iff,
        toOption_readWord hsign hds, hrange]
  | hexadecimal hmark hds hsize =>
      rw [parse?_hexadecimal hmark hds, ofWord_fault_iff,
        toOption_readBits_eq_none_iff (by decide) (hexDigits_iff.2 hds)]
      exact hsize
  | binary hmark hds hsize =>
      rw [parse?_binary hmark hds, ofWord_fault_iff,
        toOption_readBits_eq_none_iff (by decide) (bits_iff.2 hds)]
      exact hsize
  | date hdate =>
      rw [parse?_date, hdate]
      exact ⟨_, rfl⟩

/-- **The faults** are the literals without a value and the foreign numbers. -/
theorem fault_iff :
    (∃ fault, parse? item = .error fault) ↔ Valueless item ∨ ForeignNumber item := by
  constructor
  · intro hfault
    have hshape : Shape item := by
      by_contra h
      obtain ⟨fault, hfault⟩ := hfault
      rw [parse?_of_not_shape h] at hfault
      cases hfault
    cases hshape with
    | integer h =>
        rcases foreign_or_ascii h.number with hforeign | hascii
        · exact Or.inr hforeign
        · rw [parse?_integer h, ofWord_fault_iff] at hfault
          obtain @⟨sign, ds, hsign, hds⟩ := h.mono hascii
          rw [toOption_readWord hsign hds] at hfault
          exact Or.inl (.integer hsign hds hfault)
    | number h hinteger =>
        rcases foreign_or_ascii h with hforeign | hascii
        · exact Or.inr hforeign
        · obtain ⟨x, hx⟩ := Option.isSome_iff_exists.1 (isSome_float?_of_number (h.mono hascii))
          obtain ⟨fault, hfault⟩ := hfault
          rw [parse?_number h hinteger, hx] at hfault
          cases hfault
    | hexadecimal hmark hds =>
        rw [parse?_hexadecimal hmark hds, ofWord_fault_iff,
          toOption_readBits_eq_none_iff (by decide) (hexDigits_iff.2 hds)] at hfault
        exact Or.inl (.hexadecimal hmark hds hfault)
    | binary hmark hds =>
        rw [parse?_binary hmark hds, ofWord_fault_iff,
          toOption_readBits_eq_none_iff (by decide) (bits_iff.2 hds)] at hfault
        exact Or.inl (.binary hmark hds hfault)
    | text inner =>
        obtain ⟨fault, hfault⟩ := hfault
        rw [parse?_text] at hfault
        cases hfault
    | date inner =>
        cases hdate : Calendar.parse? inner with
        | none => exact Or.inl (.date hdate)
        | some t =>
            obtain ⟨fault, hfault⟩ := hfault
            rw [parse?_date, hdate] at hfault
            cases hfault
  · rintro (h | h)
    · exact fault_of_valueless h
    · exact fault_of_foreign h

end Faults

/-- **The reader of literals against the grammar.**  A text is no literal for the reader exactly if
it has none of the forms, is no foreign number and is no loose text; a fault is exactly a literal
without a value or a foreign number; and a loose text is read as a text. -/
theorem parse?_forms (item : List Char) :
    (parse? item = .ok none ↔ ¬ Form item ∧ ¬ ForeignNumber item ∧ ¬ LooseText item) ∧
      ((∃ fault, parse? item = .error fault) ↔ Valueless item ∨ ForeignNumber item) ∧
      (LooseText item → ∃ s, parse? item = .ok (some (.text s))) := by
  refine ⟨?_, fault_iff, ?_⟩
  · rw [parse?_eq_none_iff, shape_iff, not_or, not_or]
  · rintro ⟨inner, rfl, -⟩
    exact ⟨_, parse?_text inner⟩

/-! ### Where the reader leaves the grammar -/

/-- Doubled quotes come in pairs. -/
theorem count_doubled (s : List Char) : (doubled s).count '"' = 2 * s.count '"' := by
  induction s with
  | nil => rfl
  | cons c s ih =>
      rw [doubled_cons, List.count_append, ih, List.count_cons]
      by_cases hquote : c = '"'
      · rw [if_pos hquote, if_pos (beq_iff_eq.2 hquote), Nat.mul_add, Nat.add_comm]
        rfl
      · rw [if_neg hquote, if_neg (mt beq_iff_eq.1 hquote), List.count_singleton,
          if_neg (mt beq_iff_eq.1 hquote), Nat.zero_add, Nat.add_zero]

theorem ForeignNumber.not_form {item : List Char} (h : ForeignNumber item) : ¬ Form item := by
  intro hform
  cases hform with
  | integer hinteger => exact h.not_number hinteger.number
  | number hnumber => exact h.not_number hnumber
  | hexadecimal _ _ => exact not_number_of_head (by decide) h.1
  | binary _ _ => exact not_number_of_head (by decide) h.1
  | text s => exact not_number_of_head (by decide) h.1
  | date inner => exact not_number_of_head (by decide) h.1

theorem LooseText.not_form {item : List Char} (h : LooseText item) : ¬ Form item := by
  obtain ⟨inner, hitem, hloose⟩ := h
  have hnumber : ¬ NumberForm Char.isDigit item := by
    rw [hitem]
    exact fun h => not_number_of_head (by decide) (h.mono fun c _ => Text.isDecimal_of_isDigit)
  intro hform
  cases hform with
  | integer hinteger => exact hnumber hinteger.number
  | number h => exact hnumber h
  | hexadecimal _ _ => exact absurd (List.cons.inj hitem).1 (by decide)
  | binary _ _ => exact absurd (List.cons.inj hitem).1 (by decide)
  | text s => exact hloose s (List.append_cancel_right (List.cons.inj hitem).2).symm
  | date inner => exact absurd (List.cons.inj hitem).1 (by decide)

/-- An Arabic three has none of the forms and is a fault, so that it is not taken for a text; a
text with a single quote inside it has none of the forms and is a literal all the same. -/
theorem forms_of_three_and_loose :
    (¬ Form "٣".toList ∧
      parse? "٣".toList = .error (.parse "٣" "invalid digit found in string")) ∧
      ¬ Form "\"a\"b\"".toList ∧ parse? "\"a\"b\"".toList = .ok (some (.text "a\"b")) := by
  have hthree : ForeignNumber "٣".toList :=
    ⟨(isNumber_iff isDecimal_marks).1 (by decide), '٣', by decide⟩
  have hloose : LooseText "\"a\"b\"".toList := by
    refine ⟨['a', '"', 'b'], rfl, fun s h => ?_⟩
    have hcount : ['a', '"', 'b'].count '"' = 2 * s.count '"' := h ▸ count_doubled s
    have hone : ['a', '"', 'b'].count '"' = 1 := by decide
    omega
  have hinner : Text.replaceAll ['"', '"'] ['"'] ['a', '"', 'b'] = ['a', '"', 'b'] := by
    decide +kernel
  have htext := parse?_text ['a', '"', 'b']
  rw [hinner] at htext
  exact ⟨⟨hthree.not_form, rfl⟩, hloose.not_form, htext⟩

end Telemetry.Literal
