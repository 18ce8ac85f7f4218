import Telemetry.Proofs.DateTexts
import Telemetry.Proofs.LiteralForms
import Telemetry.Replay.Record

/-!
# Spellings of integers

An integer has many spellings as a literal: its decimal text, and the hexadecimal or binary digits
of its 64 bits, in either case and with zeros in front (`Literal.Spelling`).  All of them are read
as the integer, by the reader of literals and in a cell of a record, and so is the decimal text at
the front of a longer one, by the conversion `Val` (`Literal.integers_spelled`).  There are three
radices and two readers, but one lemma on digits: what is written in a base up to sixteen is the
number that the digits spell (`Number.spelled_toDigits`).
-/

namespace Telemetry

namespace Number

/-! ### Digits of a base -/

section Bases

variable {base n : Nat} {ds : List Char}

theorem toNat_toLower (c : Char) :
    c.toLower.toNat = if 65 ≤ c.toNat ∧ c.toNat ≤ 90 then c.toNat + 32 else c.toNat := by
  rw [Char.toLower]
  split
  · rename_i hupper
    have hleast : 65 ≤ c.toNat := UInt32.le_iff_toNat_le.1 hupper.1
    have hmost : c.toNat ≤ 90 := UInt32.le_iff_toNat_le.1 hupper.2
    have hsum : (c.val + 32).toNat = (c.toNat + 32) % 2 ^ 32 := UInt32.toNat_add c.val 32
    rw [if_pos ⟨hleast, hmost⟩]
    show (c.val + 32).toNat = _
    omega
  · rename_i hupper
    exact (if_neg hupper).symm

/-- A digit has the same value in either case. -/
theorem digitValue?_toLower (base : Nat) (c : Char) :
    digitValue? base c.toLower = digitValue? base c := by
  simp only [digitValue?, toNat_toLower]
  congr 1
  split_ifs <;> first | omega | exact congrArg some (by omega) | rfl

/-- The digit that is written for a value has this value. -/
theorem digitValue?_digitChar (hn : n < base) (hbase : base ≤ 16) :
    digitValue? base n.digitChar = some n := by
  have hsixteen : ∀ d < 16, digitValue? 16 d.digitChar = some d := by decide
  have hvalue := hsixteen n (Nat.lt_of_lt_of_le hn hbase)
  rw [digitValue?, Option.filter_eq_some_iff] at hvalue ⊢
  exact ⟨hvalue.1, decide_eq_true hn⟩

/-- Zeros in front do not count. -/
theorem spelled_zeros (hone : 1 < base) (hbase : base ≤ 16) (zeros : Nat) (ds : List Char) :
    spelled base 0 (List.replicate zeros '0' ++ ds) = spelled base 0 ds := by
  have hzero : digitValue? base '0' = some 0 := digitValue?_digitChar (n := 0) (by omega) hbase
  induction zeros with
  | zero => rfl
  | succ zeros ih =>
      rw [List.replicate_succ, List.cons_append, ← ih, spelled, List.foldl_cons, hzero,
        Nat.zero_mul, Nat.zero_add, Option.getD_some, spelled]

/-- The case of the digits does not count. -/
theorem spelled_toLower (base acc : Nat) (ds : List Char) :
    spelled base acc (ds.map Char.toLower) = spelled base acc ds := by
  simp only [spelled, List.foldl_map, digitValue?_toLower]

/-- **What is written in a base is what its digits spell.** -/
theorem spelled_toDigits (hone : 1 < base) (hbase : base ≤ 16) (n : Nat) :
    spelled base 0 (Nat.toDigits base n) = n := by
  induction n using Nat.strong_induction_on with
  | h n ih =>
      by_cases hlt : n < base
      · rw [Nat.toDigits_of_lt_base hlt, spelled, List.foldl_cons, List.foldl_nil,
          digitValue?_digitChar hlt hbase, Nat.zero_mul, Nat.zero_add, Option.getD_some]
      · have hle : base ≤ n := Nat.not_lt.1 hlt
        have hless : n / base < n := Nat.div_lt_self (by omega) hone
        have hlast : n % base < base := Nat.mod_lt n (by omega)
        have hfront : spelled base 0 (Nat.toDigits base (n / base)) = n / base := ih _ hless
        rw [spelled] at hfront
        rw [Nat.toDigits_of_base_le hone hle, spelled, List.foldl_append, hfront, List.foldl_cons,
          List.foldl_nil, digitValue?_digitChar hlast hbase, Option.getD_some]
        exact Nat.div_add_mod' n base

/-- What is written in a base has digits of the base. -/
theorem isSome_digitValue?_toDigits (hone : 1 < base) (hbase : base ≤ 16) (n : Nat) :
    ∀ c ∈ Nat.toDigits base n, (digitValue? base c).isSome = true := by
  induction n using Nat.strong_induction_on with
  | h n ih =>
      by_cases hlt : n < base
      · rw [Nat.toDigits_of_lt_base hlt, List.forall_mem_singleton, digitValue?_digitChar hlt hbase]
        rfl
      · have hle : base ≤ n := Nat.not_lt.1 hlt
        have hless : n / base < n := Nat.div_lt_self (by omega) hone
        have hlast : n % base < base := Nat.mod_lt n (by omega)
        rw [Nat.toDigits_of_base_le hone hle, List.forall_mem_append, List.forall_mem_singleton,
          digitValue?_digitChar hlast hbase]
        exact ⟨ih _ hless, rfl⟩

/-- Digits that spell a number: those that are written, in either case, behind any zeros. -/
def Spells (base n : Nat) (ds : List Char) : Prop :=
  ∃ zeros, ds.map Char.toLower = List.replicate zeros '0' ++ Nat.toDigits base n

theorem Spells.spelled (hone : 1 < base) (hbase : base ≤ 16) (h : Spells base n ds) :
    spelled base 0 ds = n := by
  obtain ⟨zeros, hds⟩ := h
  rw [← spelled_toLower, hds, spelled_zeros hone hbase, spelled_toDigits hone hbase]

theorem Spells.digits (hone : 1 < base) (hbase : base ≤ 16) (h : Spells base n ds) :
    Digits (fun c => (digitValue? base c).isSome) ds := by
  obtain ⟨zeros, hds⟩ := h
  have hzero : (digitValue? base '0').isSome = true :=
    Option.isSome_of_eq_some (digitValue?_digitChar (n := 0) (by omega) hbase)
  have hlower : ∀ c ∈ ds.map Char.toLower, (digitValue? base c).isSome = true := by
    rw [hds, List.forall_mem_append]
    exact ⟨fun c hc => List.eq_of_mem_replicate hc ▸ hzero,
      isSome_digitValue?_toDigits hone hbase n⟩
  refine ⟨?_, fun c hc => ?_⟩
  · rintro rfl
    exact Nat.toDigits_ne_nil (List.append_eq_nil_iff.1 hds.symm).2
  · show (digitValue? base c).isSome = true
    rw [← digitValue?_toLower]
    exact hlower _ (List.mem_map_of_mem hc)

/-- The bits of a word are read as the word. -/
theorem readBits_of_spells (hone : 1 < base) (hbase : base ≤ 16) {i : Int64}
    (h : Spells base i.toUInt64.toNat ds) : readBits base ds = .ok i := by
  have hword : Int64.ofInt i.toUInt64.toNat = i := by
    apply Int64.toBitVec_inj.1
    rw [Int64.toBitVec_ofInt]
    show BitVec.ofInt 64 (i.toBitVec.toNat : Int) = i.toBitVec
    rw [BitVec.ofInt_natCast, BitVec.ofNat_toNat, BitVec.setWidth_eq]
  have hsize : i.toUInt64.toNat < Word.count := i.toUInt64.toNat_lt
  have hread := toOption_readBits (by omega) (h.digits hone hbase)
  rw [h.spelled hone hbase, if_pos hsize, hword] at hread
  exact eq_ok_of_toOption hread

end Bases

/-! ### Decimal texts -/

/-- The decimal text of an integer is a sign and its digits. -/
theorem integerForm_integerText (x : Int) : IntegerForm Char.isDigit (integerText x) := by
  rw [integerText_eq]
  exact .mk (sign_minus _) (digits_digits _)

theorem IntegerForm.ne_nil {p : Char → Bool} {number : List Char} (h : IntegerForm p number) :
    number ≠ [] := by
  obtain @⟨sign, ds, -, hds⟩ := h
  exact List.append_ne_nil_of_right_ne_nil sign hds.1

/-- The decimal text of a word is read as the word. -/
theorem readWord_integerText (i : Int64) : readWord (integerText i.toInt) = .ok i := by
  have hspelled : spelled 10 0 (digits i.toInt.natAbs) = i.toInt.natAbs :=
    spelled_toDigits (by decide) (by decide) _
  have hsigned : withSign (minus (i.toInt < 0)) i.toInt.natAbs = i.toInt := by
    by_cases hneg : i.toInt < 0
    · rw [decide_eq_true hneg, withSign, minus, if_pos rfl, if_pos rfl]
      omega
    · rw [decide_eq_false hneg, withSign, minus, if_neg Bool.false_ne_true, if_neg (by decide)]
      omega
  have hread := toOption_readWord (sign_minus (i.toInt < 0)) (digits_digits i.toInt.natAbs)
  rw [← integerText_eq, hspelled, hsigned, Word.ofInt?_toInt] at hread
  exact eq_ok_of_toOption hread

/-- An integer is cut off at the front of a text, if what follows does not go on with it. -/
theorem prefix?_integer {p : Char → Bool} (hp : ∀ c ∈ marks, p c = false) {number rest : List Char}
    (h : IntegerForm p number)
    (hrest : ∀ c ∈ rest.head?, p c = false ∧ c ≠ '.' ∧ c ≠ 'e' ∧ c ≠ 'E') :
    prefix? p (number ++ rest) = some (number, rest) := by
  obtain @⟨sign, ds, hsign, hds⟩ := h
  have hcut : cutSign (sign ++ (ds ++ rest)) = (sign, ds ++ rest) := by
    refine cutSign_append hsign fun c hc => hds.unsigned.head_ne hp c ?_
    rwa [List.head?_append_of_ne_nil _ hds.1] at hc
  have hmantissa : cutMantissa? p (ds ++ rest) = some (ds, rest) :=
    cutMantissa?_append hp (.whole hds) fun c hc => ⟨(hrest c hc).1, (hrest c hc).2.1⟩
  have hexponent : cutExponent p rest = ([], rest) := by
    cases rest with
    | nil => rfl
    | cons c rest =>
        have hmark : ¬ (c = 'e' ∨ c = 'E') := not_or.2 (hrest c rfl).2.2
        rw [cutExponent, if_neg hmark]
  rw [List.append_assoc, prefix?, hcut]
  simp only [hmantissa, Option.map_some, hexponent, List.append_nil]

/-- An integer has neither a point nor the mark of an exponent. -/
theorem any_point_of_integer {number : List Char} (h : IntegerForm Char.isDigit number) :
    (number.any fun c => c = '.' ∨ c = 'e' ∨ c = 'E') = false := by
  obtain @⟨sign, ds, hsign, hds⟩ := h
  rw [List.any_eq_false]
  intro c hc
  rw [decide_eq_true_iff]
  rcases List.mem_append.1 hc with hc | hc
  · cases hsign with
    | none => exact nomatch hc
    | plus => exact List.mem_singleton.1 hc ▸ by decide
    | minus => exact List.mem_singleton.1 hc ▸ by decide
  · rintro (rfl | rfl | rfl) <;> exact absurd (hds.2 _ hc) (by decide)

end Number

/-! ### Readers -/

/-- No character of an integer is a blank. -/
theorem Text.isBlank_of_mem_integer {number : List Char}
    (h : Number.IntegerForm Char.isDigit number) : ∀ c ∈ number, isBlank c = false := by
  have hmarks : (Number.marks.all fun c => !isBlank c) = true := by decide
  intro c hc
  rcases h.number.mem hc with hdigit | hmark
  · exact isBlank_of_isDigit hdigit
  · exact Bool.not_eq_true' _ ▸ List.all_eq_true.1 hmarks c hmark

/-- The decimal text of an integer at the front of a text, behind blanks, is its leading number. -/
theorem Conversion.leading_integerText (i : Int64) {blanks suffix : List Char}
    (hblanks : ∀ c ∈ blanks, Text.isBlank c = true)
    (hsuffix : ∀ c ∈ suffix.head?, Text.isDecimal c = false ∧ c ≠ '.' ∧ c ≠ 'e' ∧ c ≠ 'E') :
    leading (blanks ++ ((Value.int i).chars ++ suffix)) = .int i := by
  have hform : Number.IntegerForm Char.isDigit (Value.int i).chars :=
    Number.integerForm_integerText i.toInt
  have hdecimal : Number.IntegerForm Text.isDecimal (Value.int i).chars :=
    hform.mono fun c _ => Text.isDecimal_of_isDigit
  have htrim : Text.trimStart (blanks ++ ((Value.int i).chars ++ suffix)) =
      (Value.int i).chars ++ suffix := by
    refine dropWhile_append_of_stop hblanks fun c hc => ?_
    rw [List.head?_append_of_ne_nil _ hform.ne_nil] at hc
    exact Text.isBlank_of_mem_integer hform c (List.mem_of_mem_head? hc)
  rw [leading, htrim, Number.prefix?_integer Literal.isDecimal_marks hdecimal hsuffix]
  have hpoint : ((Value.int i).chars.any fun c => c = '.' ∨ c = 'e' ∨ c = 'E') = false :=
    Number.any_point_of_integer hform
  have hread : Number.readWord (Value.int i).chars = .ok i := Number.readWord_integerText i
  simp only [hpoint, hread]
  rfl

namespace Literal

open Number

/-- The spellings of an integer as a literal: its decimal text, and the hexadecimal or binary
digits of its bits. -/
inductive Spelling (i : Int64) : List Char → Prop
  | decimal : Spelling i (Value.int i).toText.toList
  | hexadecimal {mark : Char} {ds : List Char} (hmark : mark = 'h' ∨ mark = 'H')
      (hds : Spells 16 i.toUInt64.toNat ds) : Spelling i ('&' :: mark :: ds)
  | binary {mark : Char} {ds : List Char} (hmark : mark = 'b' ∨ mark = 'B')
      (hds : Spells 2 i.toUInt64.toNat ds) : Spelling i ('&' :: mark :: ds)

/-- Every spelling of an integer is read as the integer. -/
theorem parse?_spelling {i : Int64} {item : List Char} (h : Spelling i item) :
    parse? item = .ok (some (.int i)) := by
  cases h with
  | decimal =>
      have hform := integerForm_integerText i.toInt
      have htext : (Value.int i).toText.toList = integerText i.toInt := String.toList_ofList
      rw [htext, parse?_integer (hform.mono fun c _ => Text.isDecimal_of_isDigit),
        readWord_integerText]
      rfl
  | hexadecimal hmark hds =>
      have hdigits := hds.digits (by decide) (by decide)
      rw [parse?_hexadecimal hmark (hexDigits_iff.1 hdigits),
        readBits_of_spells (by decide) (by decide) hds]
      rfl
  | binary hmark hds =>
      have hdigits := hds.digits (by decide) (by decide)
      rw [parse?_binary hmark (bits_iff.1 hdigits),
        readBits_of_spells (by decide) (by decide) hds]
      rfl

/-- **The spellings of an integer.**  Every spelling of an integer as a literal is read as the
integer, as a literal and as a cell of a record; and `Val` gives the integer for any text that
begins, behind blanks, with its decimal text, unless that goes on with a digit of any script, a
point or the mark of an exponent. -/
theorem integers_spelled (i : Int64) :
    (∀ item, Spelling i item →
      parse? item = .ok (some (.int i)) ∧ Replay.cell item = .ok (.int i)) ∧
    ∀ blanks suffix : List Char, (∀ c ∈ blanks, Text.isBlank c = true) →
      (∀ c ∈ suffix.head?, Text.isDecimal c = false ∧ c ≠ '.' ∧ c ≠ 'e' ∧ c ≠ 'E') →
      ∀ (table : VariableTable) (key : Option Int64) (stack : Stack) (time : Instant),
        let number : Token := .function (.operator (.conversion .leadingNumber))
        let text := String.ofList (blanks ++ ((Value.int i).toText.toList ++ suffix))
        number.step table key (stack.push ⟨.text text, time⟩) =
          .ok ⟨number, stack.push ⟨.int i, time⟩, []⟩ := by
  refine ⟨fun item h => ⟨parse?_spelling h, ?_⟩,
    fun blanks suffix hblanks hsuffix table key stack time => ?_⟩
  · rw [Replay.cell, parse?_spelling h]
    rfl
  · have hleading := Conversion.leading_integerText i hblanks hsuffix
    intro number text
    have htext : text.toList = blanks ++ ((Value.int i).chars ++ suffix) := by
      show (String.ofList _).toList = _
      rw [String.toList_ofList]
      exact congrArg (fun cs => blanks ++ (cs ++ suffix)) String.toList_ofList
    refine Operator.step_of_one (.conversion .leadingNumber) rfl ?_ table key stack time
    exact congrArg Except.ok (htext ▸ hleading)

/-- Minus one by its bits, in digits of both cases and behind a zero, and the least integer in front
of a unit. -/
theorem integers_spelled_of_ends :
    Spelling (-1) "&H0FfffFFFFffffFFFF".toList ∧
      parse? "&H0FfffFFFFffffFFFF".toList = .ok (some (.int (-1))) ∧
      Replay.cell "&H0FfffFFFFffffFFFF".toList = .ok (.int (-1)) ∧
      (∀ c ∈ ['\t', ' '], Text.isBlank c = true) ∧
      (∀ c ∈ "kWh".toList.head?, Text.isDecimal c = false ∧ c ≠ '.' ∧ c ≠ 'e' ∧ c ≠ 'E') ∧
      ∀ (table : VariableTable) (key : Option Int64) (stack : Stack) (time : Instant),
        let number : Token := .function (.operator (.conversion .leadingNumber))
        number.step table key (stack.push ⟨.text "\t -9223372036854775808kWh", time⟩) =
          .ok ⟨number, stack.push ⟨.int Int64.minValue, time⟩, []⟩ := by
  have hspelling : Spelling (-1) "&H0FfffFFFFffffFFFF".toList :=
    .hexadecimal (.inr rfl) ⟨1, by decide +kernel⟩
  have hblanks : ∀ c ∈ ['\t', ' '], Text.isBlank c = true := List.all_eq_true.1 rfl
  have hsuffix : ∀ c ∈ "kWh".toList.head?,
      Text.isDecimal c = false ∧ c ≠ '.' ∧ c ≠ 'e' ∧ c ≠ 'E' := by
    intro c hc
    obtain rfl : 'k' = c := Option.some.inj hc
    decide
  have hread := (integers_spelled (-1)).1 _ hspelling
  have hnumber := (integers_spelled Int64.minValue).2 ['\t', ' '] "kWh".toList hblanks hsuffix
  exact ⟨hspelling, hread.1, hread.2, hblanks, hsuffix, hnumber⟩

end Literal

end Telemetry
