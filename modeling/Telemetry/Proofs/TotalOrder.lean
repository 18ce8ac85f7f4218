import Telemetry.Proofs.DoubleOrder

/-!
# The total order of doubles

The key by which doubles are sorted.  No two doubles have the same key (`totalLE_antisymm`), and
the key respects the order of the numbers that doubles stand for (`totalKey_lt_of_lt`): it is the
number that the bits below the sign make up, and these begin with the exponent (`placeOf`).  What
the order of numbers does not tell apart, the key does: zero comes after negative zero.
-/

namespace Telemetry.Number

open Float.Model UnpackedFloat

/-! ### Places of numbers -/

section Places

/-- A magnitude under a sign; below zero the greater magnitude comes first. -/
def underSign : UnpackedFloat.Sign → Int → Int
  | .positive, magnitude => magnitude
  | .negative, magnitude => -1 - magnitude

/-- The place of a number in the order of all numbers: the exponent counts for more than the
significand, which begins with its greatest bit unless the exponent is the least. -/
def placeOf : UnpackedFloat → Int
  | .notANumber => 0
  | .infinity s => underSign s (2047 * 2 ^ 52)
  | .zero s => underSign s 0
  | .finite s q t _ => underSign s ((t + 1074) * 2 ^ 52 + q)

/-- A number as a double of 64 bits holds it. -/
def InFormat : UnpackedFloat → Prop
  | .finite _ q t _ => -1074 ≤ t ∧ t ≤ 971 ∧ q < 2 ^ 53 ∧ (-1074 < t → 2 ^ 52 ≤ q)
  | _ => True

/-- Of two finite numbers the one with the lesser exponent, or with the lesser significand under
the same exponent, has the lesser magnitude. -/
theorem magnitude_lt {q p : Nat} {t e : Int} (hq : q < 2 ^ 53) (ht : -1074 ≤ t)
    (hp : -1074 < e → 2 ^ 52 ≤ p) (h : (compare t e).then (compare q p) = .lt) :
    (t + 1074) * 2 ^ 52 + q < (e + 1074) * 2 ^ 52 + p := by
  rcases Ordering.then_eq_lt.1 h with hless | ⟨hsame, hless⟩
  · have hexponent := Int.compare_eq_lt.1 hless
    have hbit := hp (by omega)
    omega
  · have hexponent := Int.compare_eq_eq.1 hsame
    have hsignificand := Nat.compare_eq_lt.1 hless
    omega

/-- Among finite numbers, a lesser one has a lesser place. -/
theorem placeOf_finite_lt {s r : UnpackedFloat.Sign} {q p : Nat} {t e : Int} {hq : 0 < q}
    {hp : 0 < p} (hu : InFormat (.finite s q t hq)) (hv : InFormat (.finite r p e hp))
    (h : (UnpackedFloat.finite s q t hq).compare (.finite r p e hp) = some .lt) :
    placeOf (.finite s q t hq) < placeOf (.finite r p e hp) := by
  obtain ⟨hleast, -, hhigh, hbit⟩ := hu
  obtain ⟨hleast', -, hhigh', hbit'⟩ := hv
  cases s with
  | positive =>
      cases r with
      | negative => cases h
      | positive =>
          have hlt := magnitude_lt hhigh hleast hbit' (Option.some.inj h)
          simpa only [placeOf, underSign] using hlt
  | negative =>
      cases r with
      | positive =>
          simp only [placeOf, underSign]
          omega
      | negative =>
          -- below zero the order is that of the magnitudes, turned round
          have hswap : (compare e t).then (compare p q) = .lt := by
            have hsome := Option.some.inj h
            rwa [Ordering.swap_then, Int.compare_swap, Nat.compare_swap] at hsome
          have hlt := magnitude_lt hhigh' hleast' hbit hswap
          simp only [placeOf, underSign]
          omega

/-- **A lesser number has a lesser place.** -/
theorem placeOf_lt {u v : UnpackedFloat} (hu : InFormat u) (hv : InFormat v)
    (h : u.compare v = some .lt) : placeOf u < placeOf v := by
  cases u with
  | notANumber => cases v <;> cases h
  | infinity s =>
      cases v with
      | notANumber => cases h
      | infinity t =>
          cases s with
          | positive => cases t <;> cases h
          | negative =>
              cases t with
              | positive => simp [placeOf, underSign]
              | negative => cases h
      | zero t =>
          cases s with
          | positive => cases h
          | negative => cases t <;> simp [placeOf, underSign]
      | finite t p e hp =>
          cases s with
          | positive => cases h
          | negative =>
              obtain ⟨hleast, hmost, hhigh, -⟩ := hv
              cases t <;> simp only [placeOf, underSign] <;> omega
  | zero s =>
      cases v with
      | notANumber => cases h
      | infinity t =>
          cases t with
          | positive => cases s <;> simp [placeOf, underSign]
          | negative => cases h
      | zero t => cases h
      | finite t p e hp =>
          obtain ⟨hleast, -, -, -⟩ := hv
          cases t with
          | negative => cases h
          | positive => cases s <;> simp only [placeOf, underSign] <;> omega
  | finite s q t hq =>
      cases v with
      | notANumber => cases s <;> cases h
      | infinity r =>
          obtain ⟨hleast, hmost, hhigh, -⟩ := hu
          cases r with
          | negative => cases s <;> cases h
          | positive => cases s <;> simp only [placeOf, underSign] <;> omega
      | zero r =>
          obtain ⟨hleast, -, -, -⟩ := hu
          cases s with
          | positive => cases h
          | negative => cases r <;> simp only [placeOf, underSign] <;> omega
      | finite r p e hp => exact placeOf_finite_lt hu hv h

end Places

/-! ### Keys of doubles -/

section Keys

variable {x y : Float}

/-- The key is the number that the bits below the sign make up, under the sign. -/
theorem totalKey_eq (x : Float) :
    totalKey x = underSign
      (UnpackedFloat.Sign.ofBitVec (@unpackSign Format.binary64 x.toBits.toBitVec))
      ((@unpackExponent Format.binary64 x.toBits.toBitVec).toNat * 2 ^ 52 +
        (@unpackMantissa Format.binary64 x.toBits.toBitVec).toNat : Nat) := by
  have hbits := x.toBits.toNat_lt
  have hsign := unpackSign_iff (x := x)
  have hpow : Nat.pow 2 52 = 4503599627370496 := rfl
  have hexponent : Nat.pow 2 11 = 2048 := rfl
  have hhalf : Word.halfCount = 9223372036854775808 := rfl
  rw [toNat_unpackExponent, toNat_unpackMantissa, totalKey, hpow, hexponent]
  rw [isNegative, decide_eq_true_iff] at hsign
  cases hs : UnpackedFloat.Sign.ofBitVec (@unpackSign Format.binary64 x.toBits.toBitVec) with
  | positive =>
      rw [hs] at hsign
      have hlow : x.toBits.toNat < Word.halfCount := by
        refine Nat.not_le.1 fun hle => ?_
        cases hsign.2 hle
      rw [if_pos hlow]
      simp only [underSign]
      omega
  | negative =>
      have hhigh : Word.halfCount ≤ x.toBits.toNat := hsign.1 hs
      rw [if_neg (Nat.not_lt.2 hhigh)]
      simp only [underSign]
      omega

/-- **The key of a number is its place.** -/
theorem totalKey_eq_placeOf (h : x.toModel.unpack ≠ .notANumber) :
    InFormat x.toModel.unpack ∧ totalKey x = placeOf x.toModel.unpack := by
  have hexponent := (@unpackExponent Format.binary64 x.toBits.toBitVec).isLt
  have hmantissa := (@unpackMantissa Format.binary64 x.toBits.toBitVec).isLt
  change _ < 2 ^ 11 at hexponent
  change _ < 2 ^ 52 at hmantissa
  rw [totalKey_eq]
  change UnpackedFloat.unpack Format.binary64 x.toBits.toBitVec ≠ _ at h
  show InFormat (UnpackedFloat.unpack Format.binary64 x.toBits.toBitVec) ∧
    _ = placeOf (UnpackedFloat.unpack Format.binary64 x.toBits.toBitVec)
  rw [UnpackedFloat.unpack] at h ⊢
  have hones : (-1#11 : BitVec 11).toNat = 2047 := by decide
  have hbias : (Format.binary64.exponentBias + Format.binary64.mantissaBitsWithoutImplicit : Int) =
      1075 := rfl
  rw [hbias]
  split_ifs at h ⊢ with hspecial hplain hsub hzero
  · -- infinity has the greatest exponent and no fraction
    have he := (congrArg BitVec.toNat hspecial).trans hones
    have hm := congrArg BitVec.toNat hplain
    refine ⟨trivial, ?_⟩
    rw [placeOf, he, hm]
    rfl
  · exact absurd rfl h
  · have he := congrArg BitVec.toNat hsub
    have hm := congrArg BitVec.toNat hzero
    refine ⟨trivial, ?_⟩
    rw [placeOf, he, hm]
    rfl
  · -- a subnormal number has the exponent of the least normal one
    have he : (@unpackExponent Format.binary64 x.toBits.toBitVec).toNat = 0 :=
      congrArg BitVec.toNat hsub
    refine ⟨⟨?_, ?_, ?_, ?_⟩, ?_⟩
    · omega
    · omega
    · omega
    · omega
    · rw [placeOf]
      congr 1
      omega
  · have hnormal : (@unpackExponent Format.binary64 x.toBits.toBitVec).toNat ≠ 0 :=
      fun he => hsub (BitVec.eq_of_toNat_eq he)
    have hnumber : (@unpackExponent Format.binary64 x.toBits.toBitVec).toNat ≠ 2047 :=
      fun he => hspecial (BitVec.eq_of_toNat_eq (he.trans hones.symm))
    have hsignificand := toNat_significand (@unpackMantissa Format.binary64 x.toBits.toBitVec)
    refine ⟨⟨?_, ?_, ?_, ?_⟩, ?_⟩
    · omega
    · omega
    · omega
    · omega
    · rw [placeOf]
      congr 1
      omega

theorem totalKey_inj (h : totalKey x = totalKey y) : x = y := by
  have hx := x.toBits.toNat_lt
  have hy := y.toBits.toNat_lt
  have hhalf : Word.halfCount = 9223372036854775808 := rfl
  have hbits : x.toBits = y.toBits := by
    rw [totalKey, totalKey] at h
    refine UInt64.toNat_inj.1 ?_
    split at h <;> split at h <;> omega
  cases x with
  | ofModel m =>
      cases y with
      | ofModel n =>
          cases m
          cases n
          cases hbits
          rfl

/-- **No two doubles stand at the same place.** -/
theorem totalLE_antisymm (hxy : totalLE x y = true) (hyx : totalLE y x = true) : x = y :=
  totalKey_inj (Int.le_antisymm (of_decide_eq_true hxy) (of_decide_eq_true hyx))

/-- **A lesser number comes first.** -/
theorem totalKey_lt_of_lt (h : x < y) : totalKey x < totalKey y := by
  have horder := (lt_iff_order? x y).1 h
  obtain ⟨hx, hy⟩ := numbers_of_order? horder
  have hnumber : ∀ z : Float, z.isNaN = false → z.toModel.unpack ≠ .notANumber :=
    fun z hz hnan => Bool.eq_false_iff.1 hz (isNaN_iff.2 hnan)
  obtain ⟨hxformat, hxkey⟩ := totalKey_eq_placeOf (hnumber x hx)
  obtain ⟨hyformat, hykey⟩ := totalKey_eq_placeOf (hnumber y hy)
  rw [hxkey, hykey]
  exact placeOf_lt hxformat hyformat horder

example : totalLE (-0.0) 0.0 = true ∧ totalLE 0.0 (-0.0) = false := by decide +kernel

end Keys

end Telemetry.Number
