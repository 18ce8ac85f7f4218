import Mathlib.Order.Bounds.Basic
import Mathlib.Algebra.Order.Ring.Int
import Telemetry.Calendar.Instant

/-!
# Instants at a resolution

An instant that is cut to a resolution of at least two goes down to the greatest multiple of the
resolution (`isGreatest_multiple`), and if no word stands for that multiple, to the first instant
(`toInt_floorTo_eq`).  Only one multiple lies within a resolution below the first instant, so
that the cut still tells the quotients apart (`floorTo_eq_iff`): the instants between two
neighbouring multiples share their key and no others do (`floorTo_grid`).
-/

namespace Telemetry.Calendar

section Multiples

variable {r : Int}

/-- The multiple under the floor quotient is the greatest that is not above an integer. -/
theorem isGreatest_multiple (hr : 0 < r) (x : Int) :
    IsGreatest {m : Int | r ∣ m ∧ m ≤ x} (r * x.fdiv r) := by
  have hquotient : x.fdiv r = x / r := Int.fdiv_eq_ediv_of_nonneg x (Int.le_of_lt hr)
  rw [hquotient]
  constructor
  · exact ⟨Int.dvd_mul_right r (x / r), Int.mul_ediv_self_le (Int.ne_of_gt hr)⟩
  · rintro m ⟨⟨k, rfl⟩, hle⟩
    have hk : k ≤ x / r := (Int.le_ediv_iff_mul_le hr).2 (Int.mul_comm r k ▸ hle)
    exact Int.mul_le_mul_of_nonneg_left hk (Int.le_of_lt hr)

/-- An integer lies less than the divisor above that multiple. -/
theorem lt_multiple_add (hr : 0 < r) (x : Int) : x < r * x.fdiv r + r := by
  have hquotient : x.fdiv r = x / r := Int.fdiv_eq_ediv_of_nonneg x (Int.le_of_lt hr)
  have hsplit := Int.mul_ediv_add_emod x r
  have hrest := Int.emod_lt_of_pos x hr
  rw [hquotient]
  omega

/-- Multiples less than the divisor apart are the same. -/
theorem quotient_eq_of_near {a b : Int} (hab : r * a < r * b + r) (hba : r * b < r * a + r)
    (hr : 0 < r) : a = b := by
  have hle : a < b + 1 := lt_of_mul_lt_mul_left (by rw [Int.mul_add]; omega) (Int.le_of_lt hr)
  have hge : b < a + 1 := lt_of_mul_lt_mul_left (by rw [Int.mul_add]; omega) (Int.le_of_lt hr)
  omega

end Multiples

variable {resolution : Int64} {t u : Instant}

theorem two_le_toInt (h : 2 ≤ resolution) : 2 ≤ resolution.toInt := Int64.le_iff_toInt_le.1 h

/-- A resolution of one or less cuts nothing off. -/
theorem floorTo_of_fine (h : resolution.toInt ≤ 1) (t : Instant) : floorTo t resolution = t :=
  if_pos h

/-- The multiple as an integer, which the start of the range cuts off. -/
theorem toInt_floorTo_eq (h : 2 ≤ resolution) (t : Instant) :
    (floorTo t resolution).toInt =
      max (-9223372036854775808) (resolution.toInt * t.toInt.fdiv resolution.toInt) := by
  have hr := two_le_toInt h
  have hquotient : t.toInt.fdiv resolution.toInt = t.toInt / resolution.toInt :=
    Int.fdiv_eq_ediv_of_nonneg _ (by omega)
  have hsplit := Int.mul_ediv_add_emod t.toInt resolution.toInt
  rw [toInt_floorTo, if_neg (by omega), hquotient]
  omega

/-- The cut gives the multiple, or the first instant if no word stands for the multiple. -/
theorem floorTo_multiple (h : 2 ≤ resolution) (t : Instant) :
    (floorTo t resolution).toInt = resolution.toInt * t.toInt.fdiv resolution.toInt ∨
      (∀ w : Int64, w.toInt ≠ resolution.toInt * t.toInt.fdiv resolution.toInt) ∧
        floorTo t resolution = Int64.minValue := by
  have hcut := toInt_floorTo_eq h t
  rcases Int.lt_or_le (resolution.toInt * t.toInt.fdiv resolution.toInt) (-9223372036854775808) with
    hbelow | hin
  · refine Or.inr ⟨fun w hw => ?_, Int64.toInt_inj.1 ?_⟩
    · have hbounds := Word.toInt_bounds w
      omega
    · rw [Int64.toInt_minValue]
      omega
  · exact Or.inl (by omega)

theorem floorTo_le (resolution : Int64) (t : Instant) : floorTo t resolution ≤ t := by
  rcases Int.lt_or_le resolution.toInt 2 with hfine | hcoarse
  · rw [floorTo_of_fine (by omega)]
    exact Int64.le_refl t
  · have hbounds := Word.toInt_bounds t
    have hmultiple := (isGreatest_multiple (r := resolution.toInt) (by omega) t.toInt).1.2
    rw [Int64.le_iff_toInt_le, toInt_floorTo_eq (Int64.le_iff_toInt_le.2 hcoarse)]
    omega

/-- **The cut tells the floor quotients apart**, also where it is the start of the range. -/
theorem floorTo_eq_iff (h : 2 ≤ resolution) :
    floorTo t resolution = floorTo u resolution ↔
      t.toInt.fdiv resolution.toInt = u.toInt.fdiv resolution.toInt := by
  have hr := two_le_toInt h
  rw [← Int64.toInt_inj, toInt_floorTo_eq h, toInt_floorTo_eq h]
  constructor
  · intro heq
    -- an instant is above its multiple by less than a resolution, and not before the first
    have ht := lt_multiple_add (r := resolution.toInt) (by omega) t.toInt
    have hu := lt_multiple_add (r := resolution.toInt) (by omega) u.toInt
    have htfirst := (Word.toInt_bounds t).1
    have hufirst := (Word.toInt_bounds u).1
    exact quotient_eq_of_near (r := resolution.toInt) (by omega) (by omega) (by omega)
  · intro heq
    rw [heq]

/-- An instant that has been cut stays as it is. -/
theorem floorTo_floorTo (resolution : Int64) (t : Instant) :
    floorTo (floorTo t resolution) resolution = floorTo t resolution := by
  refine Int64.le_antisymm (floorTo_le resolution _) ?_
  rcases Int.lt_or_le resolution.toInt 2 with hfine | hcoarse
  · rw [floorTo_of_fine (by omega) t, floorTo_of_fine (by omega) t]
    exact Int64.le_refl t
  · have h : 2 ≤ resolution := Int64.le_iff_toInt_le.2 hcoarse
    rw [Int64.le_iff_toInt_le, toInt_floorTo_eq h (floorTo t resolution)]
    rcases floorTo_multiple h t with hmultiple | ⟨-, hfirst⟩
    · -- what the cut leaves is a multiple that is not above itself
      have hgreatest := isGreatest_multiple (r := resolution.toInt) (by omega)
        (floorTo t resolution).toInt
      have hle := hgreatest.2 ⟨⟨_, hmultiple⟩, Int.le_refl _⟩
      omega
    · rw [hfirst, Int64.toInt_minValue]
      omega

/-- **Instants are cut to a grid.**  A resolution of one or less changes no instant.  Any other
takes an instant to the greatest multiple that is not later, or to the first instant where no word
stands for that multiple.  So the cut keeps the order, is done once and for all, goes back by less
than the resolution, and makes the same of two instants exactly if their floor quotients are the
same. -/
theorem floorTo_grid (resolution : Int64) :
    (resolution ≤ 1 → ∀ t : Instant, floorTo t resolution = t) ∧
      (2 ≤ resolution →
        (∀ t : Instant, ∃ m : Int,
          IsGreatest {n : Int | resolution.toInt ∣ n ∧ n ≤ t.toInt} m ∧
            ((floorTo t resolution).toInt = m ∨
              (∀ w : Int64, w.toInt ≠ m) ∧ floorTo t resolution = Int64.minValue)) ∧
        (∀ t u : Instant, t ≤ u → floorTo t resolution ≤ floorTo u resolution) ∧
        (∀ t : Instant, floorTo (floorTo t resolution) resolution = floorTo t resolution) ∧
        (∀ t : Instant, floorTo t resolution ≤ t ∧
          t.toInt - (floorTo t resolution).toInt < resolution.toInt) ∧
        ∀ t u : Instant, floorTo t resolution = floorTo u resolution ↔
          t.toInt.fdiv resolution.toInt = u.toInt.fdiv resolution.toInt) := by
  refine ⟨fun h => floorTo_of_fine (Int64.le_iff_toInt_le.1 h), fun h => ⟨fun t => ?_, ?_,
    floorTo_floorTo resolution, fun t => ⟨floorTo_le resolution t, ?_⟩,
    fun t u => floorTo_eq_iff h⟩⟩
  · have hr := two_le_toInt h
    exact ⟨_, isGreatest_multiple (by omega) t.toInt, floorTo_multiple h t⟩
  · exact fun t u htu => floorTo_mono htu resolution
  · have hr := two_le_toInt h
    have habove := lt_multiple_add (r := resolution.toInt) (by omega) t.toInt
    rw [toInt_floorTo_eq h]
    omega

/-- Seconds at the start of the range: the first instants have their multiple before it, and all of
them the key that is the first instant, but the next second has its own. -/
theorem floorTo_grid_first :
    (0 : Int64) ≤ 1 ∧ floorTo (-7) 0 = -7 ∧ (2 : Int64) ≤ 1000000000 ∧
      floorTo Int64.minValue 1000000000 = Int64.minValue ∧
      floorTo (-9223372036000000001) 1000000000 = floorTo Int64.minValue 1000000000 ∧
      floorTo (-9223372036000000000) 1000000000 ≠ floorTo Int64.minValue 1000000000 := by
  have hfine : (0 : Int64) ≤ 1 := by decide
  have hcoarse : (2 : Int64) ≤ 1000000000 := by decide
  obtain ⟨-, -, -, hnear, hkeys⟩ := (floorTo_grid 1000000000).2 hcoarse
  refine ⟨hfine, (floorTo_grid 0).1 hfine (-7), hcoarse, ?_, (hkeys _ _).2 (by decide +kernel), ?_⟩
  · have hbounds := Word.toInt_bounds (floorTo Int64.minValue 1000000000)
    have hle := Int64.le_iff_toInt_le.1 (hnear Int64.minValue).1
    rw [Int64.toInt_minValue] at hle
    refine Int64.toInt_inj.1 ?_
    rw [Int64.toInt_minValue]
    omega
  · exact fun heq => absurd ((hkeys _ _).1 heq) (by decide +kernel)

end Telemetry.Calendar
