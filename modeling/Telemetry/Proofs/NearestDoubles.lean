import Telemetry.Proofs.NumberTexts

/-!
# Doubles nearest to natural numbers

The double that is nearest to a natural number has the first 53 bits of the number, rounded to the
nearest, a half to the even one (`rounded`).  The model of doubles shifts a mantissa bit by bit and
keeps two bits of what falls off; `roundedMantissa_shiftRight` says that these two bits are enough
to round what is left (`nearestEven`), `roundWithAccuracy_eq` what the model makes of an exact
mantissa, and `isWhole_ofScientific` that reading a natural number gives `rounded`.  A double
survives being written in its bits if it has 53 of them (`unpack_pack`), and none becomes NaN by it
(`unpack_pack_ne_nan`).
-/

namespace Telemetry.Number

open Float.Model UnpackedFloat

/-! ### Rounding of natural numbers -/

/-- The whole number nearest to `m` divided by `2 ^ d`; a half goes to the even one. -/
def nearestEven (m d : Nat) : Nat :=
  if 2 * (m % 2 ^ d) < 2 ^ d ∨ 2 * (m % 2 ^ d) = 2 ^ d ∧ m / 2 ^ d % 2 = 0 then m / 2 ^ d
  else m / 2 ^ d + 1

/-- A natural number rounded to 53 bits behind its leading zeros. -/
def rounded (n : Nat) : Nat := nearestEven n (n.log2 - 52) * 2 ^ (n.log2 - 52)

theorem nearestEven_zero (m : Nat) : nearestEven m 0 = m := by
  rw [nearestEven, Nat.pow_zero, Nat.mod_one, Nat.div_one, if_pos (Or.inl (by decide))]

/-- Zeros that are shifted in and out again do not count. -/
theorem nearestEven_mul (m a d : Nat) : nearestEven (m * 2 ^ a) (d + a) = nearestEven m d := by
  have hpos : 0 < 2 ^ a := Nat.two_pow_pos a
  have hmod : m * 2 ^ a % 2 ^ (d + a) = m % 2 ^ d * 2 ^ a := by
    rw [Nat.pow_add, Nat.mul_mod_mul_right]
  have hdiv : m * 2 ^ a / 2 ^ (d + a) = m / 2 ^ d := by
    rw [Nat.pow_add, Nat.mul_div_mul_right _ _ hpos]
  have hless : 2 * (m % 2 ^ d * 2 ^ a) < 2 ^ d * 2 ^ a ↔ 2 * (m % 2 ^ d) < 2 ^ d := by
    rw [← Nat.mul_assoc, Nat.mul_lt_mul_right hpos]
  have hhalf : 2 * (m % 2 ^ d * 2 ^ a) = 2 ^ d * 2 ^ a ↔ 2 * (m % 2 ^ d) = 2 ^ d := by
    rw [← Nat.mul_assoc, Nat.mul_left_inj (Nat.ne_of_gt hpos)]
  rw [nearestEven, nearestEven, hmod, hdiv, Nat.pow_add]
  simp only [hless, hhalf]

theorem nearestEven_bounds (m d : Nat) :
    m / 2 ^ d ≤ nearestEven m d ∧ nearestEven m d ≤ m / 2 ^ d + 1 := by
  rw [nearestEven]
  split <;> omega

/-- Of a number of `53 + d` bits, the first 53 are left, or a power of two one bit longer. -/
theorem nearestEven_bounds_of_log2 {m d : Nat} (hm : m ≠ 0) (hlog : m.log2 = 52 + d) :
    2 ^ 52 ≤ nearestEven m d ∧ nearestEven m d ≤ 2 ^ 53 := by
  obtain ⟨hleast, hmost⟩ := (Nat.log2_eq_iff hm).1 hlog
  obtain ⟨hbelow, habove⟩ := nearestEven_bounds m d
  have hpos : 0 < 2 ^ d := Nat.two_pow_pos d
  have hfirst : 2 ^ 52 ≤ m / 2 ^ d := by
    rw [Nat.le_div_iff_mul_le hpos, ← Nat.pow_add]
    exact hleast
  have hlast : m / 2 ^ d < 2 ^ 53 := by
    rw [Nat.div_lt_iff_lt_mul hpos, ← Nat.pow_add, Nat.add_comm 53 d]
    rwa [Nat.add_right_comm, Nat.add_comm 53 d] at hmost
  omega

/-! ### Rounding in the model -/

/-- **What falls off on the right**: the bit that falls off last, and whether any bit in front of it
was set. -/
theorem shiftRight_succ (m d : Nat) :
    (⟨m, false, false⟩ : ExtendedMantissa) >>> (d + 1) =
      ⟨m / 2 ^ (d + 1), m / 2 ^ d % 2 != 0, m % 2 ^ d != 0⟩ := by
  induction d with
  | zero => simp [HShiftRight.hShiftRight, Nat.repeat, ExtendedMantissa.shiftRightOne, Nat.mod_one]
  | succ d ih =>
      have hstep : (⟨m, false, false⟩ : ExtendedMantissa) >>> (d + 1 + 1) =
          ((⟨m, false, false⟩ : ExtendedMantissa) >>> (d + 1)).shiftRightOne := rfl
      have hpos : 0 < 2 ^ d := Nat.two_pow_pos d
      have hsticky : (m / 2 ^ d % 2 != 0 || m % 2 ^ d != 0) = (m % 2 ^ (d + 1) != 0) := by
        rw [Nat.mod_pow_succ, Bool.eq_iff_iff, Bool.or_eq_true, bne_iff_ne, bne_iff_ne, bne_iff_ne]
        rcases Nat.mod_two_eq_zero_or_one (m / 2 ^ d) with hbit | hbit <;> rw [hbit] <;> omega
      rw [hstep, ih, ExtendedMantissa.shiftRightOne, hsticky, Nat.div_div_eq_div_mul,
        ← Nat.pow_succ]

/-- **The two bits that are kept are enough to round.** -/
theorem roundedMantissa_shiftRight (m d : Nat) :
    ((⟨m, false, false⟩ : ExtendedMantissa) >>> d).roundedMantissa = nearestEven m d := by
  cases d with
  | zero => exact (nearestEven_zero m).symm
  | succ d =>
      have hrest : m % 2 ^ d < 2 ^ d := Nat.mod_lt m (Nat.two_pow_pos d)
      have hsplit : m % 2 ^ (d + 1) = m % 2 ^ d + 2 ^ d * (m / 2 ^ d % 2) := Nat.mod_pow_succ
      have hdouble : 2 ^ (d + 1) = 2 * 2 ^ d := by rw [Nat.pow_succ, Nat.mul_comm]
      rw [shiftRight_succ, nearestEven, hsplit]
      generalize m % 2 ^ d = rest at hrest ⊢
      generalize m / 2 ^ (d + 1) = front
      rcases Nat.mod_two_eq_zero_or_one (m / 2 ^ d) with hbit | hbit <;> rw [hbit, Nat.pow_succ] <;>
        rcases Nat.eq_zero_or_pos rest with rfl | hsome
      · exact (if_pos (Or.inl (by omega))).symm
      · have hsticky : (rest != 0) = true := bne_iff_ne.2 (Nat.ne_of_gt hsome)
        rw [hsticky, if_pos (Or.inl (by omega))]
        rfl
      · -- a half: the parity of what is left decides
        show front + front % 2 = _
        split <;> omega
      · have hsticky : (rest != 0) = true := bne_iff_ne.2 (Nat.ne_of_gt hsome)
        rw [hsticky, if_neg (by omega)]
        rfl

theorem mantissa_shiftRight (m d : Nat) :
    ((⟨m, false, false⟩ : ExtendedMantissa) >>> d).mantissa = m / 2 ^ d := by
  cases d with
  | zero => exact (Nat.div_one m).symm
  | succ d => rw [shiftRight_succ]

/-- A mantissa of `53 + d` bits is shifted by `d` bits, if that does not lead below the least
exponent. -/
theorem shiftToTargetExponent_eq {m d : Nat} {e : Int} (hlog : m.log2 = 52 + d)
    (he : -1074 ≤ e + d) :
    shiftToTargetExponent Format.binary64 m e .exact =
      ((⟨m, false, false⟩ : ExtendedMantissa) >>> d, e + d) := by
  have htarget : Format.binary64.targetExponent (totalExponent m e) = e + d := by
    simp only [Format.targetExponent, totalExponent, Format.mantissaBits, Format.minExponent, hlog]
    norm_num
    omega
  have hshift : (e + (d : Int) - e).toNat = d := by omega
  rw [shiftToTargetExponent, htarget, shiftToExponent, hshift]
  rfl

/-- **An exact mantissa is rounded once.**  What is left of `53 + d` bits has 53 bits again; if it
has been rounded up to a power of two, half of it has, with the next exponent. -/
theorem roundWithAccuracy_eq {m d : Nat} {e : Int} (sign : UnpackedFloat.Sign) (hm : m ≠ 0)
    (hlog : m.log2 = 52 + d) (he : -1074 ≤ e + d) :
    ∃ q t, ∃ hq : 0 < q,
      roundWithAccuracy Format.binary64 sign m e .exact = .finite sign q t hq ∧
        2 ^ 52 ≤ q ∧ q < 2 ^ 53 ∧
          (q = nearestEven m d ∧ t = e + d ∨
            nearestEven m d = 2 ^ 53 ∧ q = 2 ^ 52 ∧ t = e + d + 1) := by
  obtain ⟨hleast, hmost⟩ := nearestEven_bounds_of_log2 hm hlog
  have hsome : nearestEven m d ≠ 0 := by omega
  have hround : ∀ k : Nat, (nearestEven m d).log2 = 52 + k → ∀ hq : 0 < nearestEven m d / 2 ^ k,
      roundWithAccuracy Format.binary64 sign m e .exact =
        .finite sign (nearestEven m d / 2 ^ k) (e + d + k) hq := by
    intro k hk hq
    rw [roundWithAccuracy, shiftToTargetExponent_eq hlog he]
    dsimp only
    rw [roundedMantissa_shiftRight, shiftToTargetExponent_eq hk (by omega)]
    simp only [mantissa_shiftRight]
    rw [dif_neg (Nat.ne_of_gt hq)]
  by_cases hfull : nearestEven m d = 2 ^ 53
  · have hhalf : nearestEven m d / 2 ^ 1 = 2 ^ 52 := by rw [hfull]; rfl
    have hk : (nearestEven m d).log2 = 52 + 1 := by rw [hfull, Nat.log2_two_pow]
    refine ⟨_, _, by omega, hround 1 hk (by omega), ?_, ?_, Or.inr ⟨hfull, hhalf, rfl⟩⟩ <;> omega
  · have hk : (nearestEven m d).log2 = 52 + 0 := (Nat.log2_eq_iff hsome).2 ⟨hleast, by omega⟩
    have hone : nearestEven m d / 2 ^ 0 = nearestEven m d := Nat.div_one _
    refine ⟨_, _, by omega, hround 0 hk (by omega), ?_, ?_,
      Or.inl ⟨hone, Int.add_zero _⟩⟩ <;> omega

/-! ### Doubles and their bits -/

/-- The first bit of a significand is not written. -/
theorem toNat_significand (fraction : BitVec 52) :
    (1#1 ++ fraction).toNat = 2 ^ 52 + fraction.toNat := by
  rw [BitVec.toNat_append, ← Nat.shiftLeft_add_eq_or_of_lt fraction.isLt]
  rfl

/-- The bits of a double of 53 bits: its sign, its exponent and all bits but the first. -/
theorem pack_normal {sign : UnpackedFloat.Sign} {q : Nat} {t : Int} (hq : 0 < q)
    (hleast : 2 ^ 52 ≤ q) (hmost : q < 2 ^ 53) (hhigh : t ≤ 971) :
    UnpackedFloat.pack Format.binary64 (.finite sign q t hq) =
      packComponents Format.binary64 sign (BitVec.ofNat 11 (t + 1075).toNat)
        (BitVec.ofNat 52 q) := by
  have hlog : q.log2 + 1 = Format.binary64.mantissaBits :=
    congrArg (· + 1) ((Nat.log2_eq_iff (Nat.ne_of_gt hq)).2 ⟨hleast, hmost⟩)
  have hbiased : t + Format.binary64.exponentBias + Format.binary64.mantissaBitsWithoutImplicit =
      t + 1075 := Int.add_assoc t 1023 52
  have hfinite : ¬ 2 ^ Format.binary64.exponentBits ≤ (t + 1075).toNat + 1 := by
    show ¬ 2048 ≤ (t + 1075).toNat + 1
    omega
  simp only [UnpackedFloat.pack, hbiased, if_neg hfinite, if_pos hlog]

/-- **A double of 53 bits survives in its 64 bits.** -/
theorem unpack_pack {sign : UnpackedFloat.Sign} {q : Nat} {t : Int} (hq : 0 < q)
    (hleast : 2 ^ 52 ≤ q) (hmost : q < 2 ^ 53) (hlow : -1074 ≤ t) (hhigh : t ≤ 971) :
    (Float.Model.pack (.finite sign q t hq)).unpack = .finite sign q t hq := by
  have hexponent : (BitVec.ofNat 11 (t + 1075).toNat).toNat = (t + 1075).toNat := by
    rw [BitVec.toNat_ofNat]
    omega
  have hall : BitVec.ofNat 11 (t + 1075).toNat ≠ -1#11 := by
    intro h
    have hbits := congrArg BitVec.toNat h
    rw [hexponent] at hbits
    have hones : (-1#11 : BitVec 11).toNat = 2047 := by decide
    omega
  have hnone : BitVec.ofNat 11 (t + 1075).toNat ≠ 0#11 := by
    intro h
    have hbits := congrArg BitVec.toNat h
    rw [hexponent] at hbits
    have hzeros : (0#11 : BitVec 11).toNat = 0 := by decide
    omega
  have hfirst : (1#1 ++ BitVec.ofNat 52 q).toNat = q := by
    rw [toNat_significand, BitVec.toNat_ofNat]
    omega
  have hbias : ((t + 1075).toNat : Int) -
      (Format.binary64.exponentBias + Format.binary64.mantissaBitsWithoutImplicit) = t := by
    show ((t + 1075).toNat : Int) - (1023 + 52) = t
    omega
  show UnpackedFloat.unpack Format.binary64 (UnpackedFloat.pack Format.binary64 _) = _
  rw [pack_normal hq hleast hmost hhigh, UnpackedFloat.unpack]
  simp only [unpackExponent_packComponents, unpackMantissa_packComponents,
    unpackSign_packComponents, Sign.ofBitVec_toBitVec]
  rw [if_neg hall, if_neg hnone]
  simp only [hfirst, hexponent, hbias]

/-- **No double becomes NaN by being written in its bits.** -/
theorem unpack_pack_ne_nan {u : UnpackedFloat} (h : u ≠ .notANumber) :
    (Float.Model.pack u).unpack ≠ .notANumber := by
  show UnpackedFloat.unpack Format.binary64 (UnpackedFloat.pack Format.binary64 u) ≠ _
  have hcomponents : ∀ (sign : UnpackedFloat.Sign) (exponent : BitVec 11) (fraction : BitVec 52),
      exponent ≠ -1#11 ∨ fraction = 0#52 → UnpackedFloat.unpack Format.binary64
        (packComponents Format.binary64 sign exponent fraction) ≠ .notANumber := by
    intro sign exponent fraction hnumber
    rw [UnpackedFloat.unpack]
    simp only [unpackExponent_packComponents, unpackMantissa_packComponents]
    split_ifs with hones hplain
    · nofun
    · exact absurd hnumber (not_or.2 ⟨not_not.2 hones, hplain⟩)
    all_goals nofun
  cases u with
  | notANumber => exact absurd rfl h
  | infinity sign => exact hcomponents sign _ _ (Or.inr rfl)
  | zero sign => exact hcomponents sign _ _ (Or.inl (by decide))
  | finite sign q t hq =>
      rw [UnpackedFloat.pack]
      dsimp only
      split_ifs with hlarge hnormal
      · exact hcomponents sign _ _ (Or.inr rfl)
      · refine hcomponents sign _ _ (Or.inl fun hones => ?_)
        have hbits := congrArg BitVec.toNat hones
        have hmost : (-1#11 : BitVec 11).toNat = 2047 := by decide
        rw [BitVec.toNat_ofNat, hmost] at hbits
        change ¬ 2048 ≤ _ + 1 at hlarge
        change _ % 2048 = 2047 at hbits
        omega
      · exact hcomponents sign _ _ (Or.inl (by decide))

theorem toNat_unpackMantissa (x : Float) :
    (@unpackMantissa Format.binary64 x.toBits.toBitVec).toNat = x.toBits.toNat % Nat.pow 2 52 := by
  simp [unpackMantissa]

theorem toNat_unpackExponent (x : Float) :
    (@unpackExponent Format.binary64 x.toBits.toBitVec).toNat =
      x.toBits.toNat / Nat.pow 2 52 % Nat.pow 2 11 := by
  simp [unpackExponent, Nat.shiftRight_eq_div_pow]

/-- The exact terms of a double are read off its bits. -/
theorem ofFloat_of_unpack {x : Float} {s : UnpackedFloat.Sign} {q : Nat} {t : Int} {hq : 0 < q}
    (h : x.toModel.unpack = .finite s q t hq) (hleast : 2 ^ 52 ≤ q) :
    (Binary.ofFloat x).significand = q ∧ (Binary.ofFloat x).scale = t := by
  have hfraction := (@unpackMantissa Format.binary64 x.toBits.toBitVec).isLt
  change UnpackedFloat.unpack Format.binary64 x.toBits.toBitVec = _ at h
  rw [UnpackedFloat.unpack] at h
  rw [Binary.ofFloat, Binary.ofBits]
  split_ifs at h with hspecial hplain hsub hmantissa
  · -- a subnormal number has fewer bits
    obtain ⟨-, rfl, -⟩ := h
    exact absurd hfraction (Nat.not_lt.2 hleast)
  · rw [if_neg (mt unpackExponent_iff.2 hsub), ← toNat_unpackMantissa, ← toNat_unpackExponent]
    obtain ⟨-, rfl, rfl⟩ := h
    exact ⟨(toNat_significand _).symm, rfl⟩

/-! ### Natural numbers as doubles -/

/-- A double that is a natural number under a sign, in all of its 53 bits. -/
def IsWhole (u : UnpackedFloat) (sign : UnpackedFloat.Sign) (n : Nat) : Prop :=
  ∃ q t, ∃ hq : 0 < q, u = .finite sign q t hq ∧ 2 ^ 52 ≤ q ∧ q < 2 ^ 53 ∧ -1074 ≤ t ∧ t ≤ 971 ∧
    q * 2 ^ t.toNat = n * 2 ^ (-t).toNat

/-- What survives is the same number. -/
theorem IsWhole.unpack_pack {u : UnpackedFloat} {sign : UnpackedFloat.Sign} {n : Nat}
    (h : IsWhole u sign n) : (Float.Model.pack u).unpack = u := by
  obtain ⟨q, t, hq, rfl, hleast, hmost, hlow, hhigh, -⟩ := h
  exact Number.unpack_pack hq hleast hmost hlow hhigh

theorem IsWhole.neg {u : UnpackedFloat} {sign : UnpackedFloat.Sign} {n : Nat}
    (h : IsWhole u sign n) : IsWhole u.neg (-sign) n := by
  obtain ⟨q, t, hq, rfl, hwhole⟩ := h
  exact ⟨q, t, hq, rfl, hwhole⟩

/-- A natural number is nearest to the double that is this number. -/
theorem nearestInt_of_isWhole {x : Float} {sign : UnpackedFloat.Sign} {n : Nat}
    (h : IsWhole x.toModel.unpack sign n) :
    x.isFinite = true ∧ nearestInt x = sign.apply n := by
  obtain ⟨q, t, hq, hx, hleast, -, -, -, hvalue⟩ := h
  obtain ⟨hsignificand, hscale⟩ := ofFloat_of_unpack hx hleast
  have hnumerator : (Binary.ofFloat x).numerator = n * (Binary.ofFloat x).denominator := by
    rw [Binary.numerator, Binary.denominator, hsignificand, hscale]
    exact hvalue
  have hpos := (Binary.ofFloat x).denominator_pos
  have hnearest : (Binary.ofFloat x).nearest = n := by
    rw [Binary.nearest, Binary.whole, hnumerator, Nat.mul_mod_left, Nat.mul_div_cancel _ hpos,
      if_neg (by omega)]
  refine ⟨by rw [isFinite_eq, hx]; rfl, ?_⟩
  have hsign := (sign_of_finite hx).1
  rw [nearestInt, hnearest]
  cases sign with
  | positive =>
      refine if_neg fun hnegative => ?_
      cases hsign.2 hnegative
  | negative => exact if_pos (hsign.1 rfl)

theorem log2_mul_two_pow {n : Nat} (hn : n ≠ 0) (a : Nat) : (n * 2 ^ a).log2 = n.log2 + a := by
  induction a with
  | zero => rw [Nat.pow_zero, Nat.mul_one, Nat.add_zero]
  | succ a ih =>
      have hsome : n * 2 ^ a ≠ 0 := Nat.mul_ne_zero hn (Nat.ne_of_gt (Nat.two_pow_pos a))
      rw [Nat.pow_succ, ← Nat.mul_assoc, Nat.mul_comm _ 2, Nat.log2_two_mul hsome, ih,
        Nat.add_assoc]

/-- A number of at most 53 bits is not rounded. -/
theorem rounded_of_log2 {n : Nat} (h : n.log2 ≤ 52) : rounded n = n := by
  have hnone : n.log2 - 52 = 0 := Nat.sub_eq_zero_of_le h
  rw [rounded, hnone, nearestEven_zero, Nat.pow_zero, Nat.mul_one]

/-- **A natural number with zeros behind its point is rounded to 53 bits.** -/
theorem isWhole_roundWithAccuracy {n : Nat} (a : Nat) (hn : n ≠ 0) (ha : 52 ≤ n.log2 + a)
    (hhigh : n.log2 ≤ 1022) :
    IsWhole (roundWithAccuracy Format.binary64 .positive (n * 2 ^ a) (-a) .exact) .positive
      (rounded n) := by
  have hshifted : n * 2 ^ a ≠ 0 := Nat.mul_ne_zero hn (Nat.ne_of_gt (Nat.two_pow_pos a))
  obtain ⟨d, hd⟩ : ∃ d, n.log2 + a = 52 + d := ⟨n.log2 + a - 52, by omega⟩
  obtain ⟨q, t, hq, hround, hleast, hmost, hvalue⟩ :=
    roundWithAccuracy_eq (e := -a) .positive hshifted ((log2_mul_two_pow hn a).trans hd) (by omega)
  refine ⟨q, t, hq, hround, hleast, hmost, by omega, by omega, ?_⟩
  by_cases hlong : 52 ≤ n.log2
  · -- bits fall off, and no zeros are left behind the point
    obtain ⟨k, hk⟩ : ∃ k, n.log2 = 52 + k := ⟨n.log2 - 52, by omega⟩
    have hbits : n.log2 - 52 = k := by omega
    have hboth : d = k + a := by omega
    have hleft : nearestEven (n * 2 ^ a) d = nearestEven n k := by rw [hboth, nearestEven_mul]
    rw [rounded, hbits, ← hleft]
    rcases hvalue with ⟨rfl, ht⟩ | ⟨hfull, rfl, ht⟩
    · have hscale : t.toNat = k ∧ (-t).toNat = 0 := by omega
      rw [hscale.1, hscale.2, Nat.pow_zero, Nat.mul_one]
    · have hscale : t.toNat = k + 1 ∧ (-t).toNat = 0 := by omega
      rw [hscale.1, hscale.2, hfull, Nat.pow_zero, Nat.mul_one, Nat.pow_succ]
      ring
  · -- some zeros are left, and nothing is rounded
    obtain ⟨c, hc⟩ : ∃ c, n.log2 + c = 52 := ⟨52 - n.log2, by omega⟩
    have hboth : a = c + d := by omega
    have hleft : nearestEven (n * 2 ^ a) d = n * 2 ^ c := by
      have hmul := nearestEven_mul (n * 2 ^ c) d 0
      rwa [Nat.zero_add, nearestEven_zero, Nat.mul_assoc, ← Nat.pow_add, ← hboth] at hmul
    have hsmall : n * 2 ^ c < 2 ^ 53 := by
      have hsome : n * 2 ^ c ≠ 0 := Nat.mul_ne_zero hn (Nat.ne_of_gt (Nat.two_pow_pos c))
      exact ((Nat.log2_eq_iff hsome).1 ((log2_mul_two_pow hn c).trans hc)).2
    rw [rounded_of_log2 (by omega)]
    rcases hvalue with ⟨rfl, ht⟩ | ⟨hfull, -, -⟩
    · have hscale : t.toNat = 0 ∧ (-t).toNat = c := by omega
      rw [hscale.1, hscale.2, hleft, Nat.pow_zero, Nat.mul_one]
    · omega

/-- A number of at most 53 bits is converted with zeros behind its point. -/
theorem unpack_toFloat {n : Nat} (hn : n ≠ 0) (hsmall : n < 2 ^ 53) {c : Nat}
    (hc : n.log2 + c = 52) :
    ∃ hq : 0 < n * 2 ^ c,
      n.toUInt64.toFloat.toModel.unpack = .finite .positive (n * 2 ^ c) (-c) hq := by
  have hsome : n * 2 ^ c ≠ 0 := Nat.mul_ne_zero hn (Nat.ne_of_gt (Nat.two_pow_pos c))
  have hlog : (n * 2 ^ c).log2 = 52 + 0 := (log2_mul_two_pow hn c).trans hc
  obtain ⟨hleast, hmost⟩ := (Nat.log2_eq_iff hsome).1 hlog
  have hword : n.toUInt64.toNat = n := Nat.mod_eq_of_lt (Nat.lt_trans hsmall (by decide))
  have htarget : Format.binary64.targetExponent (totalExponent n 0) = -c := by
    simp only [Format.targetExponent, totalExponent, Format.mantissaBits, Format.minExponent]
    norm_num
    omega
  have hlowered : UnpackedFloat.ofUInt64 Format.binary64 n.toUInt64 =
      roundWithAccuracy Format.binary64 .positive (n * 2 ^ c) (-c) .exact := by
    have hsign : compare (n : Int) 0 = .gt := Int.compare_eq_gt.2 (by omega)
    have hshift : (0 - (-c : Int)).toNat = c := by omega
    rw [UnpackedFloat.ofUInt64, UnpackedFloat.ofNat, UnpackedFloat.ofInt, hword,
      UnpackedFloat.normalize.eq_def, hsign]
    show UnpackedFloat.round Format.binary64 .positive n 0 = _
    rw [UnpackedFloat.round, htarget, decreaseExponent, hshift, Nat.shiftLeft_eq, Int.zero_sub]
  obtain ⟨q, t, hq, hround, -, -, ⟨hsame, ht⟩ | ⟨hfull, -⟩⟩ :=
    roundWithAccuracy_eq (e := -c) .positive hsome hlog (by omega)
  · rw [nearestEven_zero] at hsame
    rw [Int.natCast_zero, Int.add_zero] at ht
    subst hsame ht
    refine ⟨hq, ?_⟩
    show (Float.Model.pack (UnpackedFloat.ofUInt64 Format.binary64 n.toUInt64)).unpack = _
    rw [hlowered, hround, unpack_pack hq hleast hmost (by omega) (by omega)]
  · rw [nearestEven_zero] at hfull
    omega

/-- **Reading a natural number as a double rounds it to 53 bits.** -/
theorem isWhole_ofScientific {n : Nat} (hn : n ≠ 0) (hhigh : n.log2 ≤ 1022) :
    IsWhole (Float.ofScientific n false 0).toModel.unpack .positive (rounded n) := by
  by_cases hsmall : n < 2 ^ 53
  · have hbits : n.log2 < 53 := (Nat.log2_lt hn).2 hsmall
    obtain ⟨c, hc⟩ : ∃ c, n.log2 + c = 52 := ⟨52 - n.log2, by omega⟩
    obtain ⟨hq, hword⟩ := unpack_toFloat hn hsmall hc
    have hone : (Float.exactlyRepresentablePowersOfTen[0]).toModel.unpack =
      .finite .positive (2 ^ 52) (-52) (by decide) := rfl
    have hwhole := isWhole_roundWithAccuracy (c + 52) hn (by omega) hhigh
    have hexponent : (-c + -52 : Int) = -(c + 52 : Nat) := by omega
    rw [Float.ofScientific, dif_pos ⟨hsmall, by decide⟩]
    show IsWhole (Float.Model.pack (UnpackedFloat.mul Format.binary64
      n.toUInt64.toFloat.toModel.unpack
      (Float.exactlyRepresentablePowersOfTen[0]).toModel.unpack)).unpack _ _
    rw [hword, hone]
    show IsWhole (Float.Model.pack (roundWithAccuracy Format.binary64 .positive
      (n * 2 ^ c * 2 ^ 52) (-c + -52) .exact)).unpack _ _
    rw [Nat.mul_assoc, ← Nat.pow_add, hexponent, hwhole.unpack_pack]
    exact hwhole
  · rw [Float.ofScientific, dif_neg (by omega)]
    show IsWhole (Float.Model.pack (UnpackedFloat.ofScientific Format.binary64 n 0)).unpack _ _
    have hlong : 53 ≤ n.log2 := (Nat.le_log2 hn).2 (Nat.not_lt.1 hsmall)
    have hexponents : ¬ (0 : Int) > 2 ^ Format.binary64.exponentBits ∧
        ¬ (0 : Int) < -((2 ^ Format.binary64.exponentBits : Int) + n.log2) := by
      constructor
      · decide
      · show ¬ (0 : Int) < -(2048 + (n.log2 : Int))
        omega
    have hlowered : UnpackedFloat.ofScientific Format.binary64 n 0 =
        roundWithAccuracy Format.binary64 .positive (n * 2 ^ 53) (-(53 : Nat)) .exact := by
      rw [UnpackedFloat.ofScientific, dif_neg hn, if_neg hexponents.1, if_neg hexponents.2,
        if_pos (by decide)]
      show roundWithAccuracy Format.binary64 .positive (n <<< 53 * 1) (-53 + 0) .exact = _
      rw [Nat.mul_one, Nat.shiftLeft_eq]
      rfl
    have hwhole := isWhole_roundWithAccuracy 53 hn (by omega) hhigh
    rw [hlowered, hwhole.unpack_pack]
    exact hwhole

end Telemetry.Number
