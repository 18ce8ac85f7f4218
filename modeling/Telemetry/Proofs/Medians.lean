import Telemetry.Proofs.CarriedSums
import Telemetry.Proofs.TotalOrder

/-!
# Medians

The median of a history is read off its values in the total order of doubles.  There is only one
way to sort values by an order in which no two of them share a place (`mergeSort_eq_of_perm`), and
so the median is a function of the values and of how often each occurs, not of their times or of
the order in which they came (`History.medianOf_perm`).  The sorted list has as many entries in
front of its middle as behind it, which bounds what is below the middle and what is above
(`halves_of_sorted`); `History.median_of_values` puts this together.
-/

namespace Telemetry

namespace Number

/-- At most half of the other entries of a list come before an entry, and at most half after it. -/
structure Halves (before : Float → Float → Bool) (xs : List Float) (m : Float) : Prop where
  below : 2 * xs.countP (fun x => before x m) ≤ xs.length - 1
  above : 2 * xs.countP (fun x => before m x) ≤ xs.length - 1

section Sorted

variable {xs ys front back : List Float} {m : Float} {before : Float → Float → Bool}

/-- A relation that holds less often leaves less on either side. -/
theorem Halves.imp {less : Float → Float → Bool} (h : Halves before xs m)
    (hle : ∀ x y, less x y = true → before x y = true) : Halves less xs m := by
  have hbelow : xs.countP (fun x => less x m) ≤ xs.countP (fun x => before x m) :=
    List.countP_mono_left fun x _ => hle x m
  have habove : xs.countP (fun x => less m x) ≤ xs.countP (fun x => before m x) :=
    List.countP_mono_left fun x _ => hle m x
  exact ⟨(Nat.mul_le_mul_left 2 hbelow).trans h.below,
    (Nat.mul_le_mul_left 2 habove).trans h.above⟩

theorem Halves.perm (h : Halves before xs m) (hperm : xs.Perm ys) : Halves before ys m := by
  refine ⟨?_, ?_⟩
  · rw [← hperm.countP_eq, ← hperm.length_eq]
    exact h.below
  · rw [← hperm.countP_eq, ← hperm.length_eq]
    exact h.above

/-- Values can be sorted in one way only. -/
theorem mergeSort_eq_of_perm (h : xs.Perm ys) :
    xs.mergeSort totalLE = ys.mergeSort totalLE := by
  have hperm : (xs.mergeSort totalLE).Perm (ys.mergeSort totalLE) :=
    (List.mergeSort_perm xs totalLE).trans (h.trans (List.mergeSort_perm ys totalLE).symm)
  exact hperm.eq_of_pairwise (fun _ _ _ _ => totalLE_antisymm) (pairwise_mergeSort xs)
    (pairwise_mergeSort ys)

/-- In a sorted list only what is in front of an entry can be below it, and only what is behind it
above. -/
theorem halves_of_sorted (hsorted : (front ++ m :: back).Pairwise fun x y => totalLE x y = true)
    (hmiddle : front.length = back.length) :
    Halves (fun x y => decide (totalKey x < totalKey y)) (front ++ m :: back) m := by
  have hlength : (front ++ m :: back).length - 1 = 2 * front.length := by
    rw [List.length_append, List.length_cons]
    omega
  have hbelow := countP_before_le hsorted
  have habove := countP_behind_le hsorted
  refine ⟨?_, ?_⟩ <;> omega

end Sorted

end Number

namespace History

open Number

section Median

variable {xs ys : List Float} {h : History}

/-- The median does not depend on the order of the values. -/
theorem medianOf_perm (hperm : xs.Perm ys) : medianOf xs = medianOf ys := by
  rw [medianOf, medianOf, mergeSort_eq_of_perm hperm]

/-- The median of an odd number of values is one of them, and has at most half of the others on
either side. -/
theorem halves_medianOf (hodd : xs.length % 2 = 1) :
    medianOf xs ∈ xs ∧ Halves (fun x y => decide (totalKey x < totalKey y)) xs (medianOf xs) := by
  have hperm := List.mergeSort_perm xs totalLE
  have hlength := hperm.length_eq
  have hat := medianOf_odd hodd
  refine ⟨hperm.mem_iff.1 (List.mem_of_getElem? hat), ?_⟩
  -- the sorted list, cut at its middle
  obtain ⟨hin, hvalue⟩ := List.getElem?_eq_some_iff.1 hat
  have hcut := List.take_append_drop (xs.length / 2) (xs.mergeSort totalLE)
  rw [List.drop_eq_getElem_cons hin, hvalue] at hcut
  have hsorted := pairwise_mergeSort xs
  rw [← hcut] at hsorted hperm
  refine (halves_of_sorted hsorted ?_).perm hperm
  rw [List.length_take, List.length_drop]
  omega

theorem evaluate_median (hsome : h.samples ≠ []) : h.evaluate .median = medianOf h.values := by
  have hempty : h.isEmpty = false := List.isEmpty_eq_false_iff.2 hsome
  rw [evaluate, hempty]
  rfl

/-- **The median is a matter of the values alone.**  Let a history, after any updates under any
limit, hold some samples.  Its median is the middle one of the values in their total order, or half
the sum of the two in the middle.  The middle one is a value that is held, with at most half of the
others before it and at most half after it, in the total order and in that of numbers.  Any other
history that holds the same values, each as often, has the same median. -/
theorem median_of_values (limit : Nat) (us : List Update)
    (hsome : ((empty limit).updates us).samples ≠ []) :
    let h := (empty limit).updates us
    let m := h.evaluate .median
    (∃ sorted : List Float, sorted.Perm h.values ∧
        sorted.Pairwise (fun x y => totalLE x y = true) ∧
        (h.length % 2 = 1 → sorted[h.length / 2]? = some m) ∧
        (h.length % 2 = 0 → ∃ a b, sorted[h.length / 2 - 1]? = some a ∧
          sorted[h.length / 2]? = some b ∧ m = (a + b) / 2.0)) ∧
      (h.length % 2 = 1 → m ∈ h.values ∧
        Halves (fun x y => decide (totalKey x < totalKey y)) h.values m ∧
        Halves (fun x y => decide (x < y)) h.values m) ∧
      ∀ (limit' : Nat) (us' : List Update), ((empty limit').updates us').values.Perm h.values →
        ((empty limit').updates us').evaluate .median = m := by
  intro h m
  have hm : m = medianOf h.values := evaluate_median hsome
  have hlength : h.length = h.values.length := (List.length_map ..).symm
  have hvalues : h.values ≠ [] := fun hnil => hsome (List.map_eq_nil_iff.1 hnil)
  rw [hm, hlength]
  refine ⟨⟨h.values.mergeSort totalLE, List.mergeSort_perm _ _, pairwise_mergeSort _,
    medianOf_odd, fun heven => medianOf_even heven hvalues⟩, fun hodd => ?_, ?_⟩
  · obtain ⟨hmem, hhalves⟩ := halves_medianOf hodd
    refine ⟨hmem, hhalves, hhalves.imp fun x y hlt => ?_⟩
    exact decide_eq_true (totalKey_lt_of_lt (of_decide_eq_true hlt))
  · intro limit' us' hperm
    have hsome' : ((empty limit').updates us').samples ≠ [] := by
      intro hnil
      refine hvalues (List.Perm.eq_nil ?_)
      rw [values, hnil, List.map_nil] at hperm
      exact hperm.symm
    rw [evaluate_median hsome', medianOf_perm hperm]

/-- Zeros of both signs and a third value, in order of time and in another order of arrival: only
the positive zero has as much on either side.  Of four values the median is made of two. -/
theorem median_of_values_zeros :
    let ordered := (empty 4).updates [.insert ⟨30, 3.0⟩, .insert ⟨10, 0.0⟩, .insert ⟨20, -0.0⟩]
    let shuffled := (empty 3).updates [.append ⟨7, 3.0⟩, .append ⟨7, -0.0⟩, .append ⟨7, 0.0⟩]
    let longer := (empty 4).updates
      [.append ⟨1, 5.0⟩, .append ⟨2, 1.0⟩, .append ⟨3, 3.0⟩, .append ⟨4, 10.0⟩]
    (ordered.samples ≠ [] ∧ ordered.length % 2 = 1 ∧ shuffled.values.Perm ordered.values ∧
        ordered.evaluate .median = 0.0 ∧ shuffled.evaluate .median = 0.0) ∧
      longer.samples ≠ [] ∧ longer.length % 2 = 0 ∧
        ∃ a b, a ∈ longer.values ∧ b ∈ longer.values ∧ longer.evaluate .median = (a + b) / 2.0 := by
  intro ordered shuffled longer
  have hvalues : ordered.values = [0.0, -0.0, 3.0] := by decide +kernel
  have hfour : longer.length = 4 := by decide +kernel
  have hperm : shuffled.values.Perm ordered.values := by decide +kernel
  have hordered : ordered.samples ≠ [] := by
    intro hnil
    rw [values, hnil] at hvalues
    cases hvalues
  have hlonger : longer.samples ≠ [] := by
    intro hnil
    rw [length, hnil] at hfour
    cases hfour
  have hodd : ordered.length % 2 = 1 := by decide +kernel
  have heven : longer.length % 2 = 0 := by rw [hfour]
  obtain ⟨-, hmiddle, hsame⟩ := median_of_values 4
    [.insert ⟨30, 3.0⟩, .insert ⟨10, 0.0⟩, .insert ⟨20, -0.0⟩] hordered
  obtain ⟨⟨sorted, hsorted, -, -, hhalf⟩, -⟩ := median_of_values 4
    [.append ⟨1, 5.0⟩, .append ⟨2, 1.0⟩, .append ⟨3, 3.0⟩, .append ⟨4, 10.0⟩] hlonger
  obtain ⟨hmem, hhalves, -⟩ := hmiddle hodd
  have hmedian : ordered.evaluate .median = 0.0 := by
    change ordered.evaluate .median ∈ ordered.values at hmem
    change Halves _ ordered.values (ordered.evaluate .median) at hhalves
    rw [hvalues] at hmem hhalves
    simp only [List.mem_cons, List.not_mem_nil, or_false] at hmem
    rcases hmem with hzero | hnegative | hthree
    · exact hzero
    · rw [hnegative] at hhalves
      exact absurd hhalves.above (by decide +kernel)
    · rw [hthree] at hhalves
      exact absurd hhalves.below (by decide +kernel)
  obtain ⟨a, b, ha, hb, hmean⟩ := hhalf heven
  exact ⟨⟨hordered, hodd, hperm, hmedian, (hsame 3 _ hperm).trans hmedian⟩, hlonger, heven, a, b,
    hsorted.mem_iff.1 (List.mem_of_getElem? ha), hsorted.mem_iff.1 (List.mem_of_getElem? hb), hmean⟩

end Median

end History

end Telemetry
