import Telemetry.Number.Notation
import Telemetry.Proofs.Numerals

/-!
# The forms of written numbers

Integers are written as an optional minus sign and digits (`integerText_eq`), finite doubles as an
optional minus sign and a number without one (`finiteText_eq`), in every layout.  The text of a
double as a value begins with a minus sign exactly if the double is below zero (`valueText_eq`):
zero has no sign there, whatever its sign bit.

The order of doubles goes by what the bits stand for, the text by the bits themselves; the section
on bits ties the two together.
-/

namespace Telemetry.Number

/-! ### Digits and signs -/

/-- A minus sign or nothing. -/
def minus (negative : Bool) : List Char := if negative then ['-'] else []

theorem digits_digits (n : Nat) : Digits Char.isDigit (digits n) :=
  ⟨Nat.toDigits_ne_nil, fun _ hc => Nat.isDigit_of_mem_toDigits (by decide) (by decide) hc⟩

theorem integerText_eq (x : Int) : integerText x = minus (x < 0) ++ digits x.natAbs := by
  rw [integerText]
  by_cases h : x < 0
  · rw [if_pos h, decide_eq_true h]
    rfl
  · rw [if_neg h, decide_eq_false h]
    rfl

theorem sign_minus (negative : Bool) : Sign (minus negative) := by
  cases negative
  · exact .none
  · exact .minus

/-! ### Layouts -/

namespace Layout

variable {ds : List Char}

theorem digits_zero : Digits Char.isDigit ['0'] := digits_digits 0

theorem unsigned_positionalText (l : Layout) (hds : Digits Char.isDigit ds) (point : Int) :
    UnsignedForm Char.isDigit (l.positionalText ds point) := by
  have hzeros : ∀ n, ∀ c ∈ List.replicate n '0', c.isDigit = true := by
    intro n c hc
    rw [List.eq_of_mem_replicate hc]
    rfl
  have hform : Mantissa Char.isDigit (l.positionalText ds point) := by
    rw [positionalText]
    split
    · have hfraction := List.forall_mem_append.2 ⟨hzeros (-point).toNat, hds.2⟩
      exact .pointed digits_zero.2 hfraction (Or.inl digits_zero.1)
    · split
      · next hpos hlt =>
          refine .pointed (fun c hc => hds.2 c (List.mem_of_mem_take hc))
            (fun c hc => hds.2 c (List.mem_of_mem_drop hc)) (Or.inl ?_)
          rw [Ne, List.take_eq_nil_iff, not_or]
          exact ⟨by omega, hds.1⟩
      · have hwhole : Digits Char.isDigit (ds ++ List.replicate (point.toNat - ds.length) '0') :=
          ⟨List.append_ne_nil_of_left_ne_nil hds.1 _, List.forall_mem_append.2 ⟨hds.2, hzeros _⟩⟩
        split
        · exact .pointed hwhole.2 digits_zero.2 (Or.inl hwhole.1)
        · rw [List.append_nil]
          exact .whole hwhole
  rw [← List.append_nil (l.positionalText ds point)]
  exact ⟨hform, .none⟩

theorem unsigned_exponentText (l : Layout) (hds : Digits Char.isDigit ds) (exponent : Int) :
    UnsignedForm Char.isDigit (l.exponentText ds exponent) := by
  have hfirst : Digits Char.isDigit (ds.take 1) :=
    ⟨by rw [Ne, List.take_eq_nil_iff, not_or]; exact ⟨by omega, hds.1⟩,
      fun c hc => hds.2 c (List.mem_of_mem_take hc)⟩
  have hmantissa : Mantissa Char.isDigit
      (ds.take 1 ++ if (ds.drop 1).isEmpty then [] else '.' :: ds.drop 1) := by
    split
    · rw [List.append_nil]
      exact .whole hfirst
    · exact .pointed hfirst.2 (fun c hc => hds.2 c (List.mem_of_mem_drop hc)) (Or.inl hfirst.1)
  -- a positive exponent has its sign from the layout, a negative one from the integer
  have hexponent : Exponent Char.isDigit
      ('e' :: ((if l.plus && 0 ≤ exponent then ['+'] else []) ++ integerText exponent)) := by
    rw [integerText_eq, ← List.append_assoc]
    refine .some (Or.inl rfl) ?_ (digits_digits _)
    by_cases hplus : (l.plus && decide (0 ≤ exponent)) = true
    · have hnonneg : ¬ exponent < 0 := by
        have hle := of_decide_eq_true (Bool.and_eq_true_iff.1 hplus).2
        omega
      rw [if_pos hplus, decide_eq_false hnonneg]
      exact .plus
    · rw [if_neg hplus]
      exact sign_minus (exponent < 0)
  exact ⟨hmantissa, hexponent⟩

/-- A finite double is written as its sign bit and a number without a sign. -/
theorem finiteText_eq (l : Layout) (x : Float) :
    ∃ rest, l.finiteText x = minus (isNegative x) ++ rest ∧ UnsignedForm Char.isDigit rest := by
  have hsign : (if x.toBits.toNat < Word.halfCount then [] else ['-']) = minus (isNegative x) := by
    rw [isNegative]
    by_cases h : x.toBits.toNat < Word.halfCount
    · rw [if_pos h, decide_eq_false (Nat.not_le.2 h)]
      rfl
    · rw [if_neg h, decide_eq_true (Nat.not_lt.1 h)]
      rfl
  rw [finiteText]
  dsimp only
  rw [hsign]
  split
  · refine ⟨_, rfl, ?_⟩
    split
    · exact ⟨.pointed digits_zero.2 digits_zero.2 (Or.inl digits_zero.1), .none⟩
    · exact ⟨.whole digits_zero, .none⟩
  · refine ⟨_, rfl, ?_⟩
    split
    · exact l.unsigned_positionalText (digits_digits _) _
    · split
      · exact l.unsigned_positionalText (digits_digits _) _
      · exact l.unsigned_exponentText (digits_digits _) _

end Layout

/-! ### What the bits stand for -/

section Bits

open Float.Model

variable {x : Float}

theorem lt_zero_iff : x < 0.0 ↔ x.toModel.unpack.lt (.zero .positive) = true := by
  have hzero : (0.0 : Float).toModel.unpack = .zero .positive := rfl
  rw [← hzero]
  exact decide_eq_true_iff

theorem zero_lt_iff : 0.0 < x ↔ UnpackedFloat.lt (.zero .positive) x.toModel.unpack = true := by
  have hzero : (0.0 : Float).toModel.unpack = .zero .positive := rfl
  rw [← hzero]
  exact decide_eq_true_iff

theorem unpackSign_iff :
    UnpackedFloat.Sign.ofBitVec
        (@UnpackedFloat.unpackSign Format.binary64 x.toBits.toBitVec) = .negative ↔
      isNegative x = true := by
  have hbit : @UnpackedFloat.unpackSign Format.binary64 x.toBits.toBitVec = 0#1 ↔
      ¬ Word.halfCount ≤ x.toBits.toNat := by
    have hlt := x.toBits.toNat_lt
    rw [← BitVec.toNat_inj]
    simp [UnpackedFloat.unpackSign, Word.halfCount]
    omega
  rw [UnpackedFloat.Sign.ofBitVec, isNegative, decide_eq_true_iff]
  split
  · next hpositive => simp [hbit.1 hpositive]
  · next hnegative => simp [not_not.1 (mt hbit.2 hnegative)]

theorem unpackExponent_iff :
    @UnpackedFloat.unpackExponent Format.binary64 x.toBits.toBitVec = 0#_ ↔
      x.toBits.toNat / Nat.pow 2 52 % Nat.pow 2 11 = 0 := by
  rw [← BitVec.toNat_inj]
  simp [UnpackedFloat.unpackExponent, Nat.shiftRight_eq_div_pow]

theorem unpackMantissa_iff :
    @UnpackedFloat.unpackMantissa Format.binary64 x.toBits.toBitVec = 0#_ ↔
      x.toBits.toNat % Nat.pow 2 52 = 0 := by
  rw [← BitVec.toNat_inj]
  simp [UnpackedFloat.unpackMantissa]

theorem sign_of_finite {s : UnpackedFloat.Sign} {m : Nat} {e : Int} {hm : 0 < m}
    (h : x.toModel.unpack = .finite s m e hm) :
    (s = .negative ↔ isNegative x = true) ∧ (Binary.ofFloat x).significand ≠ 0 := by
  change UnpackedFloat.unpack Format.binary64 x.toBits.toBitVec = _ at h
  rw [UnpackedFloat.unpack] at h
  rw [Binary.ofFloat, Binary.ofBits]
  split_ifs at h with hspecial hplain hsub hmantissa
  · rw [if_pos (unpackExponent_iff.1 hsub)]
    obtain ⟨rfl, -, -⟩ := h
    exact ⟨unpackSign_iff, mt unpackMantissa_iff.2 hmantissa⟩
  · rw [if_neg (mt unpackExponent_iff.2 hsub)]
    obtain ⟨rfl, -, -⟩ := h
    refine ⟨unpackSign_iff, ?_⟩
    have hpos : 0 < Nat.pow 2 52 := Nat.pow_pos (by decide)
    show Nat.pow 2 52 + _ ≠ 0
    omega

theorem significand_of_zero {s : UnpackedFloat.Sign} (h : x.toModel.unpack = .zero s) :
    (Binary.ofFloat x).significand = 0 := by
  change UnpackedFloat.unpack Format.binary64 x.toBits.toBitVec = _ at h
  rw [UnpackedFloat.unpack] at h
  rw [Binary.ofFloat, Binary.ofBits]
  split_ifs at h with hspecial hplain hsub hmantissa
  rw [if_pos (unpackExponent_iff.1 hsub)]
  exact unpackMantissa_iff.1 hmantissa

/-- A finite double that is not zero has no zero for its nearest integer, unless it has a
fraction. -/
theorem nearest_ne_zero {b : Binary} (hsome : b.significand ≠ 0) (hwhole : b.hasFraction = false) :
    b.nearest ≠ 0 := by
  have hpos : 0 < b.numerator := Nat.mul_pos (by omega) (Nat.pow_pos (by decide))
  rw [Binary.hasFraction, bne_eq_false_iff_eq] at hwhole
  have hle : b.denominator ≤ b.numerator := Nat.le_of_dvd hpos (Nat.dvd_of_mod_eq_zero hwhole)
  have hpart : b.whole ≠ 0 := (Nat.div_pos hle b.denominator_pos).ne'
  have hnear := b.whole_le_nearest
  omega

/-- A number without a sign, or one of the names of what is no number or not finite. -/
def Unsigned (cs : List Char) : Prop :=
  UnsignedForm Char.isDigit cs ∨ cs = "NaN".toList ∨ cs = "Infinity".toList

theorem unsigned_digits (n : Nat) : Unsigned (digits n) := Or.inl (digits_digits n).unsigned

theorem isNaN_eq (x : Float) : x.isNaN = x.toModel.unpack.isNaN := rfl

theorem isInf_eq (x : Float) : x.isInf = x.toModel.unpack.isInf := rfl

theorem isFinite_eq (x : Float) : x.isFinite = x.toModel.unpack.isFinite := rfl

/-- The text of a finite double as a value. -/
theorem valueText_of_finite (h : x.toModel.unpack.isFinite = true) :
    valueText x =
      if isIntegral x && x.abs < 1e15 then integerText (nearestInt x)
      else compact.finiteText x := by
  have hkind : x.isNaN = false ∧ x.isInf = false := by
    rw [isNaN_eq, isInf_eq]
    cases hx : x.toModel.unpack with
    | notANumber | infinity => rw [hx] at h; exact nomatch h
    | zero | finite => exact ⟨rfl, rfl⟩
  rw [valueText, hkind.1, hkind.2]
  rfl

/-- Zero is written without a sign. -/
theorem valueText_of_zero {s : UnpackedFloat.Sign} (hx : x.toModel.unpack = .zero s) :
    valueText x = digits 0 := by
  have hnumerator : (Binary.ofFloat x).numerator = 0 := by
    rw [Binary.numerator, significand_of_zero hx, Nat.zero_mul]
  have hsmall : (isIntegral x && decide (x.abs < 1e15)) = true := by
    have habs : x.abs = 0.0 := by
      rw [Float.abs, Float.Model.abs, hx]
      rfl
    have hless : (0.0 : Float) < 1e15 := by decide
    rw [isIntegral, isFinite_eq, hx, Binary.hasFraction, hnumerator, Nat.zero_mod, habs,
      decide_eq_true hless]
    rfl
  have hnearest : nearestInt x = 0 := by
    have hpos := (Binary.ofFloat x).denominator_pos
    have hwhole : (Binary.ofFloat x).nearest = 0 := by
      rw [Binary.nearest, Binary.whole, hnumerator, Nat.zero_mod, Nat.zero_div, if_neg (by omega)]
    rw [nearestInt, hwhole]
    split <;> rfl
  rw [valueText_of_finite (by rw [hx]; rfl), if_pos hsmall, hnearest]
  rfl

/-- A finite double other than zero is written with its sign bit. -/
theorem valueText_of_nonzero {s : UnpackedFloat.Sign} {m : Nat} {e : Int} {hm : 0 < m}
    (hx : x.toModel.unpack = .finite s m e hm) :
    ∃ rest, valueText x = minus (isNegative x) ++ rest ∧ UnsignedForm Char.isDigit rest := by
  rw [valueText_of_finite (by rw [hx]; rfl)]
  split
  · next hsmall =>
      have hwhole := (Bool.and_eq_true_iff.1 hsmall).1
      rw [isIntegral, Bool.and_eq_true_iff, Bool.not_eq_true'] at hwhole
      have hnearest := nearest_ne_zero (sign_of_finite hx).2 hwhole.2
      have hnegative : decide (nearestInt x < 0) = isNegative x := by
        rw [nearestInt]
        cases isNegative x with
        | true => exact decide_eq_true (by rw [if_pos rfl]; omega)
        | false => exact decide_eq_false (by rw [if_neg nofun]; omega)
      rw [integerText_eq, hnegative]
      exact ⟨_, rfl, (digits_digits _).unsigned⟩
  · exact compact.finiteText_eq x

/-- **The text of a double begins with a minus sign exactly if the double is below zero.** -/
theorem valueText_eq (x : Float) :
    ∃ rest, valueText x = minus (decide (x < 0.0)) ++ rest ∧ Unsigned rest := by
  have hlt := lt_zero_iff (x := x)
  cases hx : x.toModel.unpack with
  | notANumber =>
      rw [hx] at hlt
      rw [decide_eq_false (mt hlt.1 nofun), valueText, isNaN_eq, hx]
      exact ⟨_, rfl, Or.inr (Or.inl rfl)⟩
  | infinity s =>
      have hgt := zero_lt_iff (x := x)
      rw [hx] at hlt hgt
      rw [valueText, isNaN_eq, isInf_eq, hx]
      cases s with
      | negative =>
          have hnot : ¬ 0.0 < x := mt hgt.1 (by decide)
          rw [decide_eq_true (hlt.2 rfl)]
          exact ⟨_, congrArg String.toList (if_neg hnot), Or.inr (Or.inr rfl)⟩
      | positive =>
          rw [decide_eq_false (mt hlt.1 (by decide))]
          exact ⟨_, congrArg String.toList (if_pos (hgt.2 rfl)), Or.inr (Or.inr rfl)⟩
  | zero s =>
      rw [hx] at hlt
      have hnot : ¬ x < 0.0 := mt hlt.1 (by cases s <;> nofun)
      rw [valueText_of_zero hx, decide_eq_false hnot]
      exact ⟨_, rfl, unsigned_digits 0⟩
  | finite s m e hm =>
      rw [hx] at hlt
      have hbelow : decide (x < 0.0) = isNegative x := by
        rw [Bool.eq_iff_iff, decide_eq_true_iff, hlt, ← (sign_of_finite hx).1]
        cases s with
        | negative => exact ⟨fun _ => rfl, fun _ => rfl⟩
        | positive => exact ⟨nofun, nofun⟩
      obtain ⟨rest, htext, hrest⟩ := valueText_of_nonzero hx
      exact ⟨rest, hbelow ▸ htext, Or.inl hrest⟩

end Bits

end Telemetry.Number
