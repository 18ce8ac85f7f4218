import Telemetry.Proofs.NearestDoubles

/-!
# The order of doubles

The order of two doubles is that of the numbers they stand for; it is turned round with them, and
there is none if one of them is not a number (`order?_swap`, `order?_eq_none_iff`).  The distance of
two doubles and the greater of their magnitudes do not depend on which comes first (`abs_sub_comm`,
`greater_abs_comm`), and so neither does whether they are close (`close_comm`).
-/

namespace Telemetry.Number

open Float.Model

/-! ### Unpacked doubles -/

section Unpacked

variable (u v : UnpackedFloat)

/-- The order of two numbers is turned round with them. -/
theorem compare_swap : (u.compare v).map Ordering.swap = v.compare u := by
  cases u with
  | notANumber => cases v <;> rfl
  | infinity s => cases v <;> cases s <;> first | rfl | next t => cases t <;> rfl
  | zero s =>
      cases v with
      | infinity t => cases t <;> rfl
      | finite t q d hq => cases t <;> rfl
      | _ => rfl
  | finite s m e hm =>
      cases v with
      | notANumber => cases s <;> rfl
      | infinity t => cases s <;> cases t <;> rfl
      | zero t => cases s <;> rfl
      | finite t q d hq =>
        have hswap : ((compare e d).then (compare m q)).swap =
            (compare d e).then (compare q m) := by
          rw [Ordering.swap_then, Int.compare_swap, Nat.compare_swap]
        cases s <;> cases t
        · show some _ = some _
          rw [hswap]
        · rfl
        · rfl
        · exact congrArg some hswap

theorem compare_eq_none_iff :
    u.compare v = none ↔ u = .notANumber ∨ v = .notANumber := by
  fun_cases UnpackedFloat.compare u v <;> simp_all

/-- Magnitudes have no zero of either sign, so that what is equal in their order is the same. -/
theorem eq_of_compare_abs (h : u.abs.compare v.abs = some .eq) : u.abs = v.abs := by
  have hbeq : u.abs.beq v.abs = true := by
    rw [UnpackedFloat.beq, h]
    rfl
  obtain ⟨-, -, hsame | ⟨-, hminus⟩ | ⟨hminus, -⟩⟩ :=
    (UnpackedFloat.beq_iff_ne_notANumber_and_eq _ _).1 hbeq
  · exact hsame
  · cases v <;> cases hminus
  · cases u <;> cases hminus

theorem abs_round (s t : UnpackedFloat.Sign) (m : Nat) (e : Int) :
    (UnpackedFloat.round Format.binary64 s m e).abs =
      (UnpackedFloat.round Format.binary64 t m e).abs := by
  simp only [UnpackedFloat.round, UnpackedFloat.roundWithAccuracy]
  split <;> rfl

theorem abs_normalize_neg (m e : Int) (s : UnpackedFloat.Sign) :
    (UnpackedFloat.normalize Format.binary64 (-m) e s).abs =
      (UnpackedFloat.normalize Format.binary64 m e s).abs := by
  rw [UnpackedFloat.normalize, UnpackedFloat.normalize]
  rcases Int.lt_trichotomy m 0 with hless | rfl | hmore
  · have h1 : compare m 0 = .lt := Int.compare_eq_lt.2 hless
    have h2 : compare (-m) 0 = .gt := Int.compare_eq_gt.2 (by omega)
    rw [h1, h2]
    exact abs_round ..
  · rfl
  · have h1 : compare m 0 = .gt := Int.compare_eq_gt.2 hmore
    have h2 : compare (-m) 0 = .lt := Int.compare_eq_lt.2 (by omega)
    rw [h1, h2]
    dsimp only
    rw [Int.neg_neg]
    exact abs_round ..

/-- Two differences that are taken the other way round are rounded in the same way. -/
theorem abs_sub_swap :
    (UnpackedFloat.sub Format.binary64 u v).abs = (UnpackedFloat.sub Format.binary64 v u).abs := by
  cases u with
  | notANumber => cases v <;> rfl
  | infinity s =>
      cases v with
      | infinity t => cases s <;> cases t <;> rfl
      | _ => rfl
  | zero s =>
      cases v with
      | zero t => cases s <;> cases t <;> rfl
      | _ => rfl
  | finite s m e hm =>
      cases v with
      | finite t q d hq =>
          simp only [UnpackedFloat.sub]
          rw [Int.min_comm d e, ← abs_normalize_neg, Int.neg_sub]
      | _ => rfl

theorem abs_unpack_packComponents (s : UnpackedFloat.Sign) (e : BitVec 11) (m : BitVec 52) :
    (UnpackedFloat.unpack Format.binary64
        (UnpackedFloat.packComponents Format.binary64 s e m)).abs =
      UnpackedFloat.unpack Format.binary64
        (UnpackedFloat.packComponents Format.binary64 .positive e m) := by
  rw [UnpackedFloat.unpack, UnpackedFloat.unpack]
  simp only [UnpackedFloat.unpackExponent_packComponents,
    UnpackedFloat.unpackMantissa_packComponents]
  split_ifs <;> simp [UnpackedFloat.abs]

/-- Only the sign bit is lost with the sign. -/
theorem abs_unpack_pack : (Float.Model.pack u).unpack.abs = (Float.Model.pack u.abs).unpack := by
  show (UnpackedFloat.unpack Format.binary64 (UnpackedFloat.pack Format.binary64 u)).abs =
    UnpackedFloat.unpack Format.binary64 (UnpackedFloat.pack Format.binary64 u.abs)
  cases u with
  | notANumber => exact abs_unpack_packComponents ..
  | infinity s => exact abs_unpack_packComponents ..
  | zero s => exact abs_unpack_packComponents ..
  | finite s m e hm =>
      simp only [UnpackedFloat.pack, UnpackedFloat.abs]
      split_ifs <;> exact abs_unpack_packComponents ..

end Unpacked

/-! ### Numbers -/

section Numbers

theorem le_zero_iff {x : Float} : x ≤ 0.0 ↔ x.toModel.unpack.le (.zero .positive) = true := by
  have hzero : (0.0 : Float).toModel.unpack = .zero .positive := rfl
  rw [← hzero]
  exact decide_eq_true_iff

/-- A number is above zero unless it is zero or below. -/
theorem not_le_zero_iff {x : Float} (h : x.toModel.unpack ≠ .notANumber) :
    ¬ x ≤ 0.0 ↔ 0.0 < x := by
  rw [le_zero_iff, zero_lt_iff]
  cases hx : x.toModel.unpack with
  | notANumber => exact absurd hx h
  | infinity sign => cases sign <;> decide
  | zero sign => cases sign <;> decide
  | finite sign q t hq =>
      cases sign with
      | positive => exact iff_of_true nofun rfl
      | negative => exact iff_of_false (fun h => h rfl) nofun

/-- A natural number of 64 bits is a number as a double. -/
theorem ofNat_ne_nan {n : Nat} (h : n < 2 ^ 64) :
    (Float.ofNat n).toModel.unpack ≠ .notANumber := by
  by_cases hn : n = 0
  · subst hn
    have hzero : (Float.ofNat 0).toModel.unpack = .zero .positive := rfl
    rw [hzero]
    nofun
  · have hlog := (Nat.log2_lt hn).2 h
    obtain ⟨q, t, hq, hfinite, -⟩ := isWhole_ofScientific hn (by omega)
    show (Float.ofScientific n false 0).toModel.unpack ≠ _
    rw [hfinite]
    nofun

/-- An integer whose magnitude has 64 bits is a number as a double. -/
theorem ofInt_ne_nan {x : Int} (h : x.natAbs < 2 ^ 64) :
    (Float.ofInt x).toModel.unpack ≠ .notANumber := by
  cases x with
  | ofNat n => exact ofNat_ne_nan h
  | negSucc n =>
      have hmagnitude : (Float.ofNat (n + 1)).toModel.unpack ≠ .notANumber := ofNat_ne_nan h
      refine unpack_pack_ne_nan fun hneg => hmagnitude ?_
      cases hunpack : (Float.ofNat (n + 1)).toModel.unpack with
      | notANumber => rfl
      | infinity | zero | finite =>
          rw [hunpack] at hneg
          cases hneg

theorem isNaN_iff {x : Float} : x.isNaN = true ↔ x.toModel.unpack = .notANumber := by
  rw [isNaN_eq]
  exact UnpackedFloat.isNaN_iff

/-- A word is a number as a double. -/
theorem isNaN_ofWord (w : Int64) : (ofWord w).isNaN = false := by
  have hbounds := Word.toInt_bounds w
  exact Bool.eq_false_iff.2 (mt isNaN_iff.1 (ofInt_ne_nan (by omega)))

end Numbers

/-! ### Doubles -/

section Doubles

variable (x y : Float)

/-- The order of the numbers that two doubles stand for, if both are numbers. -/
def order? : Option Ordering := x.toModel.unpack.compare y.toModel.unpack

theorem order?_swap : (order? x y).map Ordering.swap = order? y x := compare_swap _ _

theorem order?_eq_none_iff : order? x y = none ↔ x.isNaN = true ∨ y.isNaN = true := by
  rw [isNaN_iff, isNaN_iff]
  exact compare_eq_none_iff _ _

/-- Doubles that have an order are numbers. -/
theorem numbers_of_order? {x y : Float} {o : Ordering} (h : order? x y = some o) :
    x.isNaN = false ∧ y.isNaN = false := by
  have hnumbers : ¬ (x.isNaN = true ∨ y.isNaN = true) := by
    rw [← order?_eq_none_iff, h]
    nofun
  exact (not_or.1 hnumbers).imp Bool.eq_false_iff.2 Bool.eq_false_iff.2

theorem lt_iff_order? : x < y ↔ order? x y = some .lt := by
  have hlt : x < y ↔ x.toModel.unpack.lt y.toModel.unpack = true := decide_eq_true_iff
  rw [hlt, UnpackedFloat.lt, beq_iff_eq]
  rfl

theorem beq_iff_order? : (x == y) = true ↔ order? x y = some .eq := by
  have hbeq : (x == y) = x.toModel.unpack.beq y.toModel.unpack := rfl
  rw [hbeq, UnpackedFloat.beq, beq_iff_eq]
  rfl

/-- A double is made of the number it stands for. -/
theorem pack_unpack (m : Float.Model) : Float.Model.pack m.unpack = m := by
  have hbits : UnpackedFloat.pack Format.binary64 m.unpack = m.toBits.toBitVec :=
    UnpackedFloat.pack_unpack_of_valid m.valid
  cases m
  rw [Float.Model.pack, Float.Model.mk.injEq, ← UInt64.toBitVec_inj]
  exact hbits

theorem unpack_abs : x.abs.toModel.unpack = x.toModel.unpack.abs := by
  have hpack : x.abs.toModel.unpack = (Float.Model.pack x.toModel.unpack.abs).unpack := rfl
  rw [hpack, ← abs_unpack_pack, pack_unpack]

/-- The distance of two doubles does not depend on which comes first. -/
theorem abs_sub_comm : (x - y).abs = (y - x).abs := by
  have habs : (x - y).toModel.unpack.abs = (y - x).toModel.unpack.abs := by
    show (Float.Model.pack (UnpackedFloat.sub Format.binary64 x.toModel.unpack y.toModel.unpack)
        ).unpack.abs =
      (Float.Model.pack (UnpackedFloat.sub Format.binary64 y.toModel.unpack x.toModel.unpack)
        ).unpack.abs
    rw [abs_unpack_pack, abs_unpack_pack, abs_sub_swap]
  exact congrArg (fun u => Float.ofModel (Float.Model.pack u)) habs

theorem isNaN_abs : x.abs.isNaN = x.isNaN := by
  rw [isNaN_eq, isNaN_eq, unpack_abs]
  cases x.toModel.unpack <;> rfl

/-- Magnitudes that are equal in their order are the same double. -/
theorem abs_eq_of_order? (h : order? x.abs y.abs = some .eq) : x.abs = y.abs := by
  have hunpack : x.abs.toModel.unpack = y.abs.toModel.unpack := by
    rw [order?, unpack_abs, unpack_abs] at h
    rw [unpack_abs, unpack_abs, eq_of_compare_abs _ _ h]
  have hmodel := congrArg Float.Model.pack hunpack
  rw [pack_unpack, pack_unpack] at hmodel
  exact congrArg Float.ofModel hmodel

/-- Nor does the greater of their magnitudes, if both are numbers. -/
theorem greater_abs_comm (hx : x.isNaN = false) (hy : y.isNaN = false) :
    greater x.abs y.abs = greater y.abs x.abs := by
  have horder : order? x.abs y.abs ≠ none := by
    rw [Ne, order?_eq_none_iff, isNaN_abs, isNaN_abs, hx, hy]
    decide
  have hswap := order?_swap x.abs y.abs
  have hnumber : ∀ z : Float, z.isNaN = false → ¬ z.abs.isNaN = true := by
    intro z hz
    rw [isNaN_abs, hz]
    decide
  rw [greater, greater, if_neg (hnumber x hx), if_neg (hnumber y hy), if_neg (hnumber x hx),
    if_neg (hnumber y hy)]
  cases ho : order? x.abs y.abs with
  | none => exact absurd ho horder
  | some o =>
      rw [ho] at hswap
      have hless := lt_iff_order? x.abs y.abs
      have hmore := lt_iff_order? y.abs x.abs
      rw [ho] at hless
      rw [← hswap] at hmore
      cases o with
      | lt => rw [if_pos (hless.2 rfl), if_neg (mt hmore.1 nofun)]
      | gt => rw [if_neg (mt hless.1 nofun), if_pos (hmore.2 rfl)]
      | eq =>
          rw [if_neg (mt hless.1 nofun), if_neg (mt hmore.1 nofun)]
          exact abs_eq_of_order? x y ho

/-- Whether two doubles agree to seven digits. -/
def close : Bool :=
  x.isFinite && y.isFinite && decide ((x - y).abs ≤ 1e-7 * greater x.abs y.abs)

/-- Closeness does not depend on which comes first. -/
theorem close_comm (hx : x.isNaN = false) (hy : y.isNaN = false) : close x y = close y x := by
  rw [close, close, abs_sub_comm, greater_abs_comm x y hx hy, Bool.and_comm x.isFinite]

end Doubles

end Telemetry.Number
