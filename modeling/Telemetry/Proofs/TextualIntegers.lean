import Telemetry.Proofs.IntegerSpellings
import Telemetry.Proofs.NearestDoubles

/-!
# Integers through their texts

`CInt` reads a text as a double before it rounds it to an integer, so that an integer that has been
converted to text does not always come back.  What comes back has the first 53 bits of the integer,
rounded as the nearest double is (`nearby`); the greatest 512 integers are rounded out of range, and
their texts are refused.  An integer comes back as it was exactly if 53 bits are enough for it, up
to zeros behind them (`Conversion.integers_throughDigits`).
-/

namespace Telemetry

namespace Number

/-! ### What rounding leaves -/

/-- Rounding leads up to the next power of two at most. -/
theorem rounded_le {n : Nat} (hn : n ≠ 0) : rounded n ≤ 2 ^ (n.log2 + 1) := by
  by_cases hlong : 52 ≤ n.log2
  · obtain ⟨k, hk⟩ : ∃ k, n.log2 = 52 + k := ⟨n.log2 - 52, by omega⟩
    have hbits : n.log2 - 52 = k := by omega
    have hmost := (nearestEven_bounds_of_log2 hn hk).2
    have hpower : 2 ^ (n.log2 + 1) = 2 ^ 53 * 2 ^ k := by rw [← Nat.pow_add]; congr 1; omega
    rw [rounded, hbits, hpower]
    exact Nat.mul_le_mul_right _ hmost
  · rw [rounded_of_log2 (by omega)]
    exact Nat.le_of_lt Nat.lt_log2_self

/-- **Rounding leads out of the words** from the middle between the two greatest doubles on. -/
theorem rounded_lt_iff {n : Nat} (h : n ≤ 2 ^ 63) :
    rounded n ≤ 2 ^ 63 ∧ (rounded n < 2 ^ 63 ↔ n < 2 ^ 63 - 512) := by
  by_cases hn : n = 0
  · subst hn
    decide
  rcases Nat.lt_or_ge n (2 ^ 62) with hsmall | hlarge
  · have hlog : n.log2 < 62 := (Nat.log2_lt hn).2 hsmall
    have hmost := rounded_le hn
    have hpower : 2 ^ (n.log2 + 1) ≤ 2 ^ 62 := Nat.pow_le_pow_right (by decide) hlog
    omega
  · rcases Nat.lt_or_eq_of_le h with hless | rfl
    · have hlog : n.log2 = 62 := (Nat.log2_eq_iff hn).2 ⟨hlarge, hless⟩
      rw [rounded, hlog, nearestEven]
      norm_num
      split <;> omega
    · decide +kernel

/-- **Rounding keeps the numbers of 53 bits and zeros behind them**, and no others. -/
theorem rounded_eq_self_iff {n : Nat} : rounded n = n ↔ ∃ m e, m ≤ 2 ^ 53 ∧ n = m * 2 ^ e := by
  by_cases hshort : n.log2 ≤ 52
  · have hsmall : n ≤ 2 ^ 53 :=
      Nat.le_trans (Nat.le_of_lt Nat.lt_log2_self) (Nat.pow_le_pow_right (by decide) (by omega))
    exact iff_of_true (rounded_of_log2 hshort) ⟨n, 0, hsmall, (Nat.mul_one n).symm⟩
  obtain ⟨k, hk⟩ : ∃ k, n.log2 = 52 + k := ⟨n.log2 - 52, by omega⟩
  have hbits : n.log2 - 52 = k := by omega
  have hn : n ≠ 0 := by
    rintro rfl
    exact hshort (by decide)
  rw [rounded, hbits]
  constructor
  · intro h
    exact ⟨nearestEven n k, k, (nearestEven_bounds_of_log2 hn hk).2, h.symm⟩
  · rintro ⟨m, e, hm, hvalue⟩
    have hleast : 2 ^ (52 + k) ≤ n := hk ▸ Nat.log2_self_le hn
    have hmost : n ≤ 2 ^ (53 + e) := by
      rw [hvalue, Nat.pow_add]
      exact Nat.mul_le_mul_right _ hm
    -- `e` is one less than `k` only if `m` is a power of two, and then so is `n`
    have hle : 52 + k ≤ 53 + e :=
      (Nat.pow_le_pow_iff_right (by decide)).1 (Nat.le_trans hleast hmost)
    have hdvd : 2 ^ k ∣ n := by
      rcases Nat.lt_or_eq_of_le hle with hless | hequal
      · rw [hvalue]
        exact Nat.dvd_mul_left_of_dvd (Nat.pow_dvd_pow 2 (by omega)) m
      · have hpower : n = 2 ^ (52 + k) := Nat.le_antisymm (hequal ▸ hmost) hleast
        rw [hpower]
        exact Nat.pow_dvd_pow 2 (by omega)
    obtain ⟨q, rfl⟩ := hdvd
    have hscaled := nearestEven_mul q k 0
    rw [Nat.mul_comm, Nat.zero_add, nearestEven_zero] at hscaled
    rw [hscaled, Nat.mul_comm]

/-- The integer that is left of one whose magnitude is rounded. -/
def nearby (x : Int) : Int := if x < 0 then -rounded x.natAbs else rounded x.natAbs

theorem nearby_eq_self_iff {x : Int} :
    nearby x = x ↔ ∃ m e, m ≤ 2 ^ 53 ∧ x.natAbs = m * 2 ^ e := by
  rw [← rounded_eq_self_iff, nearby]
  split <;> omega

/-! ### Reading integers as doubles -/

/-- Digits are a numeral without an exponent. -/
theorem numeral?_digits (n : Nat) : numeral? (digits n) = some ⟨n, 0⟩ := by
  have hall := (digits_digits n).2
  have hvalue : digitsValue (digits n) = n := Nat.ofDigitChars_toDigits (by decide) (by decide)
  have hsome : (digits n).isEmpty = false :=
    List.isEmpty_eq_false_iff.2 (digits_digits n).1
  rw [numeral?, List.takeWhile_eq_self_iff.2 hall, List.dropWhile_eq_nil_iff.2 hall]
  simp [hsome, hvalue, exponent?]

theorem splitSign_digits {ds : List Char} (hds : Digits Char.isDigit ds) :
    splitSign ds = (false, ds) := by
  have hhead : ∀ c ∈ ds.head?, c ∉ marks := hds.head_ne isDigit_marks
  rw [splitSign.eq_def]
  split
  · exact absurd (by decide) (hhead '-' rfl)
  · exact absurd (by decide) (hhead '+' rfl)
  · rfl

/-- The text of an integer is read as the double of its magnitude, under its sign. -/
theorem float?_integerText (x : Int) :
    float? (integerText x) =
      some (if x < 0 then -(Numeral.toFloat ⟨x.natAbs, 0⟩) else Numeral.toFloat ⟨x.natAbs, 0⟩) := by
  have hunsigned : unsigned? (digits x.natAbs) = some (Numeral.toFloat ⟨x.natAbs, 0⟩) := by
    rw [unsigned?, numeral?_digits]
  rw [integerText]
  by_cases hnegative : x < 0
  · rw [if_pos hnegative, if_pos hnegative, float?]
    show (unsigned? (digits x.natAbs)).map _ = _
    rw [hunsigned]
    rfl
  · rw [if_neg hnegative, if_neg hnegative, float?, splitSign_digits (digits_digits _)]
    dsimp only
    rw [hunsigned]
    rfl

/-- A natural number in the range of the words is read as it is rounded. -/
theorem isWhole_toFloat {n : Nat} (hn : n ≠ 0) (h : n ≤ 2 ^ 63) :
    IsWhole (Numeral.toFloat ⟨n, 0⟩).toModel.unpack .positive (rounded n) := by
  have hlength : (digits n).length ≤ 20 :=
    (Nat.length_toDigits_le_iff (by decide) (by decide)).2 (Nat.lt_of_le_of_lt h (by decide))
  have hlog : n.log2 < 64 := (Nat.log2_lt hn).2 (Nat.lt_of_le_of_lt h (by decide))
  have hread : Numeral.toFloat ⟨n, 0⟩ = Float.ofScientific n false 0 := by
    rw [Numeral.toFloat]
    dsimp only
    rw [if_neg hn, if_neg (by omega), if_neg (by omega)]
    rfl
  rw [hread]
  exact isWhole_ofScientific hn (by omega)

/-- **The double that an integer is read as** is near the integer. -/
theorem nearestWord?_of_integerText {x : Int} (h : x.natAbs ≤ 2 ^ 63) {y : Float}
    (hread : float? (integerText x) = some y) : nearestWord? y = Word.ofInt? (nearby x) := by
  rw [float?_integerText, Option.some.injEq] at hread
  subst hread
  by_cases hzero : x = 0
  · subst hzero
    decide +kernel
  have hwhole := isWhole_toFloat (Int.natAbs_ne_zero.2 hzero) h
  rw [nearby]
  by_cases hnegative : x < 0
  · have hneg : IsWhole (-(Numeral.toFloat ⟨x.natAbs, 0⟩)).toModel.unpack .negative
        (rounded x.natAbs) := by
      show IsWhole (Float.Model.pack (Numeral.toFloat ⟨x.natAbs, 0⟩).toModel.unpack.neg).unpack _ _
      rw [hwhole.neg.unpack_pack]
      exact hwhole.neg
    obtain ⟨hfinite, hnearest⟩ := nearestInt_of_isWhole hneg
    rw [if_pos hnegative, if_pos hnegative, nearestWord?, if_pos hfinite, hnearest]
    rfl
  · obtain ⟨hfinite, hnearest⟩ := nearestInt_of_isWhole hwhole
    rw [if_neg hnegative, if_neg hnegative, nearestWord?, if_pos hfinite, hnearest]
    rfl

/-- **Which integers stay in range.** -/
theorem ofInt?_nearby (i : Int64) :
    Word.ofInt? (nearby i.toInt) =
      if i.toInt < 9223372036854775296 then some (Int64.ofInt (nearby i.toInt)) else none := by
  have hbounds := Word.toInt_bounds i
  have hrange := rounded_lt_iff (n := i.toInt.natAbs) (by omega)
  have hiff : -9223372036854775808 ≤ nearby i.toInt ∧ nearby i.toInt ≤ 9223372036854775807 ↔
      i.toInt < 9223372036854775296 := by
    rw [nearby]
    split <;> omega
  rw [Word.ofInt?]
  exact if_congr hiff rfl rfl

end Number

namespace Conversion

open Number

/-- The functions that convert to text and back to an integer. -/
def throughDigits : List Token :=
  [.function (.operator (.conversion .toText)), .function (.operator (.conversion .toInteger))]

/-- The text of an integer is read as the integer near it, or is out of range. -/
theorem integer_text (function : String) (i : Int64) :
    integer function (.text (Value.int i).toText) =
      if i.toInt < 9223372036854775296 then .ok (.int (Int64.ofInt (nearby i.toInt)))
      else .error (.typeMismatch function "finite number" (Value.int i).toText) := by
  have hform : IntegerForm Char.isDigit (integerText i.toInt) := integerForm_integerText i.toInt
  have htext : (Value.int i).toText.toList = integerText i.toInt := String.toList_ofList
  have htrim : Text.trim (integerText i.toInt) = integerText i.toInt :=
    Text.trim_of_ends
      (fun c hc => Text.isBlank_of_mem_integer hform c (List.mem_of_mem_head? hc))
      fun c hc => Text.isBlank_of_mem_integer hform c (List.mem_of_mem_getLast? hc)
  obtain ⟨y, hy⟩ : ∃ y, float? (integerText i.toInt) = some y := ⟨_, float?_integerText i.toInt⟩
  have hbounds := Word.toInt_bounds i
  have hnearest := nearestWord?_of_integerText (by omega) hy
  rw [ofInt?_nearby] at hnearest
  have hread : readFloat function (Value.int i).toText = .ok y := by
    rw [readFloat, htext, htrim, hy]
  simp only [integer, hread, bind, Except.bind, hnearest]
  by_cases hrange : i.toInt < 9223372036854775296
  · rw [if_pos hrange, if_pos hrange]
    rfl
  · rw [if_neg hrange, if_neg hrange]
    rfl

variable (table : VariableTable) (key : Option Int64) (stack : Stack) (time : Instant)

/-- What a walk through the text of an integer leaves. -/
theorem walk_throughDigits (i : Int64) :
    walk table key throughDigits (stack.push ⟨.int i, time⟩) =
      if i.toInt < 9223372036854775296 then
        ⟨throughDigits, 2, [], .ok (stack.push ⟨.int (Int64.ofInt (nearby i.toInt)), time⟩)⟩
      else
        ⟨throughDigits, 1, [],
          .error (.typeMismatch toInteger.name "finite number" (Value.int i).toText)⟩ := by
  have htext := Operator.step_of_one (.conversion .toText)
    (f := fun a => .ok (.text a.toText)) rfl (v := .int i) (w := .text (Value.int i).toText) rfl
    table key stack time
  have hback := integer_text toInteger.name i
  split
  · next hrange =>
      rw [if_pos hrange] at hback
      have hinteger := Operator.step_of_one (.conversion .toInteger) rfl hback table key stack time
      simp only [throughDigits, walk, htext, hinteger]
      rfl
  · next hrange =>
      rw [if_neg hrange] at hback
      have hinteger :=
        Operator.step_of_one_error (.conversion .toInteger) rfl hback table key stack time
      simp only [throughDigits, walk, htext, hinteger]
      rfl

/-- **Integers through their texts.**  An integer that is converted to text and back becomes the
integer near it, with 53 bits in front of zeros, or is refused if it is one of the 512 greatest.  It
is the same integer exactly if 53 bits are enough for it, although `CInt` leaves every integer as it
is. -/
theorem integers_throughDigits (i : Int64) :
    (walk table key throughDigits (stack.push ⟨.int i, time⟩) =
      if i.toInt < 9223372036854775296 then
        ⟨throughDigits, 2, [], .ok (stack.push ⟨.int (Int64.ofInt (nearby i.toInt)), time⟩)⟩
      else
        ⟨throughDigits, 1, [],
          .error (.typeMismatch "CInt" "finite number" (Value.int i).toText)⟩) ∧
    ((walk table key throughDigits (stack.push ⟨.int i, time⟩)).outcome =
        .ok (stack.push ⟨.int i, time⟩) ↔
      ∃ m e, m ≤ 2 ^ 53 ∧ i.toInt.natAbs = m * 2 ^ e) ∧
    walk table key [.function (.operator (.conversion .toInteger))] (stack.push ⟨.int i, time⟩) =
      ⟨[.function (.operator (.conversion .toInteger))], 1, [],
        .ok (stack.push ⟨.int i, time⟩)⟩ := by
  refine ⟨walk_throughDigits table key stack time i, ?_, ?_⟩
  · rw [walk_throughDigits, ← nearby_eq_self_iff]
    have hrange := ofInt?_nearby i
    by_cases hlow : i.toInt < 9223372036854775296
    · rw [if_pos hlow] at hrange ⊢
      have hword : (Int64.ofInt (nearby i.toInt)).toInt = nearby i.toInt :=
        Word.ofInt?_eq_some_iff.1 hrange
      constructor
      · intro h
        have hback : Int64.ofInt (nearby i.toInt) = i := by simpa [Stack.push] using h
        rw [← hword, hback]
      · intro h
        rw [h, Int64.ofInt_toInt]
    · rw [if_neg hlow] at hrange ⊢
      refine iff_of_false (fun h => ?_) fun h => ?_
      · cases h
      · rw [h, Word.ofInt?_toInt] at hrange
        cases hrange
  · have hsame := Operator.step_of_one (.conversion .toInteger) rfl (v := .int i) (w := .int i) rfl
      table key stack time
    simp only [walk, hsame]
    rfl

/-- **Two integers that do not come back**: the least one above zero that needs 54 bits, and the
greatest, which is no finite number to `CInt` after `CStr`. -/
theorem throughDigits_not_inverse :
    (walk .empty none throughDigits (Stack.push {} ⟨.int 9007199254740993, 0⟩)).outcome =
        .ok (Stack.push {} ⟨.int 9007199254740992, 0⟩) ∧
      (walk .empty none throughDigits (Stack.push {} ⟨.int 9223372036854775807, 0⟩)).outcome =
        .error (.typeMismatch "CInt" "finite number" "9223372036854775807") := by
  have hnear : nearby (9007199254740993 : Int64).toInt = 9007199254740992 := by decide +kernel
  have hgreatest : (Value.int 9223372036854775807).toText = "9223372036854775807" := by
    decide +kernel
  constructor
  · rw [walk_throughDigits, if_pos (by decide), hnear]
    rfl
  · rw [walk_throughDigits, if_neg (by decide), hgreatest]
    rfl

end Conversion

end Telemetry
