import Telemetry.Proofs.Application
import Telemetry.Proofs.DoubleOrder

/-!
# Quotients and remainders of integers

Integer division and `Mod` round their operands to integers first, and what they make of the two
integers fits together (`DividesInto`).  One quotient is out of range, that of the least integer by
minus one: it wraps around, and with it the product.  With zero for a divisor both give the double
that division gives (`Arithmetic.overZero`).
-/

namespace Telemetry

/-! ### Words -/

/-- The quotient `q` and the remainder `r` of the integer `i` by `j`. -/
structure DividesInto (i j q r : Int64) : Prop where
  /-- In words, quotient and remainder lead back to the dividend. -/
  wrapped : q * j + r = i
  lt_divisor : r.toInt.natAbs < j.toInt.natAbs
  sign_eq : r = 0 ∨ r.toInt.sign = i.toInt.sign
  /-- In unbounded integers they do so as well, unless the quotient is out of range. -/
  exact_of_range : ¬ (i = Int64.minValue ∧ j = -1) → q.toInt * j.toInt + r.toInt = i.toInt
  out_of_range : i = Int64.minValue → j = -1 → q = Int64.minValue ∧ r = 0

/-- A quotient is out of range in one case only. -/
theorem Word.toInt_div {i j : Int64} (h : ¬ (i = Int64.minValue ∧ j = -1)) :
    (i / j).toInt = i.toInt.tdiv j.toInt := by
  by_cases hleast : i = Int64.minValue
  · exact Int64.toInt_div_of_ne_right i j fun hminus => h ⟨hleast, hminus⟩
  · exact Int64.toInt_div_of_ne_left i j hleast

/-- **Division of words** rounds towards zero and leaves the remainder that fits. -/
theorem dividesInto_div_mod (i : Int64) {j : Int64} (hj : j ≠ 0) :
    DividesInto i j (i / j) (i % j) := by
  have hdivisor : j.toInt ≠ 0 := fun h => hj (Int64.toInt_inj.1 h)
  have hexact : ¬ (i = Int64.minValue ∧ j = -1) →
      (i / j).toInt * j.toInt + (i % j).toInt = i.toInt := by
    intro hrange
    rw [Word.toInt_div hrange, Int64.toInt_mod, Int.mul_comm, Int.mul_tdiv_add_tmod]
  refine ⟨?_, ?_, ?_, hexact, ?_⟩
  · by_cases hrange : i = Int64.minValue ∧ j = -1
    · obtain ⟨rfl, rfl⟩ := hrange
      decide
    · apply Int64.toInt_inj.1
      rw [Int64.toInt_add, Int64.toInt_mul, Int.bmod_add_bmod, hexact hrange]
      exact i.toInt_bmod
  · rw [Int64.toInt_mod, Int.natAbs_tmod]
    exact Nat.mod_lt _ (Int.natAbs_pos.2 hdivisor)
  · rw [← Int64.toInt_inj, Int64.toInt_mod, Int.sign_tmod, Int64.toInt_zero]
    by_cases hdvd : j.toInt ∣ i.toInt
    · exact Or.inl (Int.tmod_eq_zero_of_dvd hdvd)
    · exact Or.inr (if_neg hdvd)
  · rintro rfl rfl
    exact ⟨Int64.minValue_div_neg_one, by decide⟩

/-! ### Operands -/

/-- Whether a value is seen as an integer does not depend on who asks. -/
theorem Value.toWord_congr {v : Value} {function : String} {i : Int64}
    (h : v.toWord function = .ok i) (other : String) : v.toWord other = .ok i := by
  cases v with
  | int j | date j => exact h
  | text s => cases h
  | float x =>
      rw [toWord] at h ⊢
      cases hword : Number.nearestWord? x with
      | none =>
          rw [hword] at h
          cases h
      | some j =>
          rw [hword] at h
          exact h

/-- An integer or a date is seen as the integer it holds, and as the number of this integer. -/
theorem Value.views_of_word? {v : Value} {i : Int64} {isDate : Bool}
    (h : v.word? = some (i, isDate)) (function : String) :
    v.toWord function = .ok i ∧ v.toFloat function = .ok (Number.ofWord i) ∧
      v.isZero = (i == 0) := by
  cases v with
  | int j | date j =>
      cases h
      exact ⟨rfl, rfl, rfl⟩
  | float x | text s => cases h

namespace Arithmetic

/-- An operation on integers, as the operands are seen as integers. -/
theorem whole_eq {function : String} {a b : Value} {i j : Int64} (ha : a.toWord function = .ok i)
    (hb : b.toWord function = .ok j) (f : Int64 → Int64 → Int64) :
    whole function f a b = .ok (if j = 0 then overZero (i = 0) else .int (f i j)) := by
  rw [whole, ha, hb]
  by_cases hzero : j = 0
  · simp only [bind, Except.bind, if_pos hzero]
    rfl
  · simp only [bind, Except.bind, if_neg hzero]
    rfl

/-- An integer or a date divided by zero. -/
theorem quotient_eq (function : String) {a b : Value} {i : Int64} {dateLeft dateRight : Bool}
    (ha : a.word? = some (i, dateLeft)) (hb : b.word? = some (0, dateRight)) :
    quotient function a b = .ok (overZero (i = 0)) := by
  obtain ⟨-, hfloat, hzero⟩ := Value.views_of_word? ha function
  obtain ⟨-, hdivisor, hnothing⟩ := Value.views_of_word? hb function
  rw [quotient, hfloat, hdivisor, hzero, hnothing]
  simp only [bind, Except.bind, Number.isNaN_ofWord, Bool.or_false]
  rfl

/-- Nothing divided by zero is no number, and anything else is infinite. -/
theorem overZero_eq (nothing : Bool) :
    ∃ x : Float, overZero nothing = .float x ∧
      if nothing then x.isNaN = true else x.isInf = true ∧ 0.0 < x := by
  cases nothing with
  | true => exact ⟨_, rfl, by decide +kernel⟩
  | false => exact ⟨_, rfl, by decide +kernel⟩

/-- The operators that round their operands to integers. -/
def onIntegers : List Arithmetic := [divideWhole, remainder]

/-- What an operator on integers makes of its operands, as they are seen as integers. -/
theorem gives_whole_iff {op : Arithmetic} {f : Int64 → Int64 → Int64}
    (hrule : op.rule = .two (whole op.name f)) {function : String} {a b v : Value} {i j : Int64}
    (ha : a.toWord function = .ok i) (hb : b.toWord function = .ok j) :
    (Operator.arithmetic op).Gives [a, b] v ↔
      (if j = 0 then overZero (i = 0) else .int (f i j)) = v := by
  have hvalues : (Operator.arithmetic op).rule.onValues [a, b] = some (whole op.name f a b) := by
    show op.rule.onValues [a, b] = _
    rw [hrule]
    rfl
  rw [Operator.gives_iff hvalues,
    whole_eq (Value.toWord_congr ha op.name) (Value.toWord_congr hb op.name), Except.ok.injEq]

theorem rule_of_mem_onIntegers {op : Arithmetic} (h : op ∈ onIntegers) :
    ∃ f, op.rule = .two (whole op.name f) := by
  rcases List.mem_cons.1 h with rfl | h
  · exact ⟨_, rfl⟩
  · cases List.mem_singleton.1 h
    exact ⟨_, rfl⟩

/-- **Integer division and remainder fit together.**  Operands that are seen as integers, doubles
included, give the answers of these integers: a quotient and a remainder that fit, or with zero for
a divisor the double that division gives of integers and dates, which is no number if there was
nothing to divide and infinite if there was. -/
theorem quotient_with_remainder {function : String} {a b : Value} {i j : Int64}
    (ha : a.toWord function = .ok i) (hb : b.toWord function = .ok j) :
    (∀ op ∈ onIntegers, ∀ v, (Operator.arithmetic op).Gives [a, b] v ↔
        (Operator.arithmetic op).Gives [.int i, .int j] v) ∧
      (j ≠ 0 → ∃ q r, (Operator.arithmetic divideWhole).Gives [a, b] (.int q) ∧
        (Operator.arithmetic remainder).Gives [a, b] (.int r) ∧ DividesInto i j q r) ∧
      (j = 0 → ∃ x, (∀ op ∈ onIntegers, (Operator.arithmetic op).Gives [a, b] (.float x)) ∧
        (a.word?.isSome → b.word?.isSome →
          (Operator.arithmetic divide).Gives [a, b] (.float x)) ∧
        if i = 0 then x.isNaN = true else x.isInf = true ∧ 0.0 < x) := by
  refine ⟨?_, ?_, ?_⟩
  · intro op hop v
    obtain ⟨f, hrule⟩ := rule_of_mem_onIntegers hop
    have hleft : (Value.int i).toWord function = .ok i := rfl
    have hright : (Value.int j).toWord function = .ok j := rfl
    rw [gives_whole_iff hrule ha hb, gives_whole_iff hrule hleft hright]
  · intro hj
    refine ⟨i / j, i % j, ?_, ?_, dividesInto_div_mod i hj⟩
    · exact (gives_whole_iff rfl ha hb).2 (if_neg hj)
    · exact (gives_whole_iff rfl ha hb).2 (if_neg hj)
  · intro hj
    obtain ⟨x, hx, hvalue⟩ := overZero_eq (i = 0)
    refine ⟨x, ?_, ?_, by simpa using hvalue⟩
    · intro op hop
      obtain ⟨f, hrule⟩ := rule_of_mem_onIntegers hop
      exact (gives_whole_iff hrule ha hb).2 (by rw [if_pos hj, hx])
    · intro hleft hright
      obtain ⟨⟨n, dateLeft⟩, hn⟩ := Option.isSome_iff_exists.1 hleft
      obtain ⟨⟨d, dateRight⟩, hd⟩ := Option.isSome_iff_exists.1 hright
      obtain rfl : n = i :=
        Except.ok.inj ((Value.views_of_word? hn function).1.symm.trans ha)
      obtain rfl : d = 0 :=
        Except.ok.inj ((Value.views_of_word? hd function).1.symm.trans (hb.trans (by rw [hj])))
      exact (Operator.gives_iff rfl).2 ((quotient_eq divide.name hn hd).trans (by rw [hx]))

/-- A double and a date: `-7.5` is rounded away from zero, and the quotient towards it. -/
theorem quotient_with_remainder_rounded :
    (Value.float (-7.5)).toWord "Mod" = .ok (-8) ∧ (Value.date 3).toWord "Mod" = .ok 3 ∧
      ∃ q r, (Operator.arithmetic divideWhole).Gives [.float (-7.5), .date 3] (.int q) ∧
        (Operator.arithmetic remainder).Gives [.float (-7.5), .date 3] (.int r) ∧
        DividesInto (-8) 3 q r := by
  have hround : (Value.float (-7.5)).toWord "Mod" = .ok (-8) := by decide +kernel
  exact ⟨hround, rfl, (quotient_with_remainder hround rfl).2.1 (by decide)⟩

end Arithmetic

end Telemetry
