import Telemetry.Proofs.TotalOrder
import Telemetry.Window.History

/-!
# Ranks of values

Which value stands where when values are put in their total order, said without sorting them: the
value of a rank is the one that so many others come before (`Number.ranked`), and the middle of
values is made of those of the middle ranks (`Number.middle`).  Whoever sorts the values finds the
value of a rank in its place (`Number.ranked_eq_of_sorted`), because in a sorted list only what is
in front of an entry can come before it.  So the median that a history computes by sorting is the
middle of its values (`History.medianOf_eq_middle`).
-/

namespace Telemetry

namespace Number

/-- The value of a rank, counted from zero: at most so many values come before it, and with those
of the same place in the order there are more. -/
def ranked (xs : List Float) (rank : Nat) : Float :=
  (xs.find? fun x => xs.countP (fun y => totalKey y < totalKey x) ≤ rank &&
    rank < xs.countP (fun y => totalKey y ≤ totalKey x)).getD (0.0 / 0.0)

/-- The value of the middle rank, or half the sum of the values of the two in the middle. -/
def middle (xs : List Float) : Float :=
  if xs.length % 2 = 1 then ranked xs (xs.length / 2)
  else (ranked xs (xs.length / 2 - 1) + ranked xs (xs.length / 2)) / 2.0

section Sorted

variable {xs sorted front back : List Float} {x y : Float} {rank : Nat}

/-- In a sorted list only what is in front of an entry can come before it. -/
theorem countP_before_le
    (hsorted : (front ++ x :: back).Pairwise fun x y => totalLE x y = true) :
    (front ++ x :: back).countP (fun y => totalKey y < totalKey x) ≤ front.length := by
  obtain ⟨-, hback, -⟩ := List.pairwise_append.1 hsorted
  obtain ⟨hbehind, -⟩ := List.pairwise_cons.1 hback
  have hnone : (x :: back).countP (fun y => totalKey y < totalKey x) = 0 := by
    refine List.countP_eq_zero.2 fun y hy hlt => ?_
    have hkey := of_decide_eq_true hlt
    rcases List.mem_cons.1 hy with rfl | hy
    · omega
    · have hle : totalKey x ≤ totalKey y := of_decide_eq_true (hbehind y hy)
      omega
  rw [List.countP_append, hnone, Nat.add_zero]
  exact List.countP_le_length

/-- And only what is behind it can come after it. -/
theorem countP_behind_le
    (hsorted : (front ++ x :: back).Pairwise fun x y => totalLE x y = true) :
    (front ++ x :: back).countP (fun y => totalKey x < totalKey y) ≤ back.length := by
  obtain ⟨-, -, hacross⟩ := List.pairwise_append.1 hsorted
  have hnone : (front ++ [x]).countP (fun y => totalKey x < totalKey y) = 0 := by
    refine List.countP_eq_zero.2 fun y hy hlt => ?_
    have hkey := of_decide_eq_true hlt
    rcases List.mem_append.1 hy with hy | hy
    · have hle : totalKey y ≤ totalKey x := of_decide_eq_true (hacross y hy x List.mem_cons_self)
      omega
    · cases List.mem_singleton.1 hy
      omega
  have hsplit : front ++ x :: back = (front ++ [x]) ++ back := by simp
  rw [hsplit, List.countP_append, hnone, Nat.zero_add]
  exact List.countP_le_length

/-- What does not come after a value comes before it or has its place. -/
theorem countP_upTo (xs : List Float) (x : Float) :
    xs.countP (fun y => totalKey y ≤ totalKey x) +
      xs.countP (fun y => totalKey x < totalKey y) = xs.length := by
  have hsplit := List.length_eq_countP_add_countP (fun y => decide (totalKey y ≤ totalKey x))
    (l := xs)
  simpa using hsplit.symm

/-- No two values have one rank. -/
theorem eq_of_rank (hx : xs.countP (fun z => totalKey z < totalKey x) ≤ rank)
    (hx' : rank < xs.countP (fun z => totalKey z ≤ totalKey x))
    (hy : xs.countP (fun z => totalKey z < totalKey y) ≤ rank)
    (hy' : rank < xs.countP (fun z => totalKey z ≤ totalKey y)) : x = y := by
  -- of two places, all that is up to the former comes before the latter
  have hcount : ∀ {a b : Float}, totalKey a < totalKey b →
      xs.countP (fun z => totalKey z ≤ totalKey a) ≤
        xs.countP (fun z => totalKey z < totalKey b) := by
    intro a b hlt
    refine List.countP_mono_left fun z _ hz => decide_eq_true ?_
    have := of_decide_eq_true hz
    omega
  refine totalKey_inj ?_
  rcases Int.lt_trichotomy (totalKey x) (totalKey y) with hlt | heq | hlt
  · have := hcount hlt
    omega
  · exact heq
  · have := hcount hlt
    omega

/-- **The value of a rank is found in that place of the sorted values**, whoever has sorted
them. -/
theorem ranked_eq_of_sorted (hperm : sorted.Perm xs)
    (hsorted : sorted.Pairwise fun x y => totalLE x y = true) (hx : sorted[rank]? = some x) :
    ranked xs rank = x := by
  obtain ⟨hin, hvalue⟩ := List.getElem?_eq_some_iff.1 hx
  have hfront : (sorted.take rank).length = rank := by
    rw [List.length_take, Nat.min_eq_left (Nat.le_of_lt hin)]
  have hcut := List.take_append_drop rank sorted
  rw [List.drop_eq_getElem_cons hin, hvalue] at hcut
  rw [← hcut] at hsorted hperm
  have hbefore := countP_before_le hsorted
  have hbehind := countP_behind_le hsorted
  have hupTo := countP_upTo (sorted.take rank ++ x :: sorted.drop (rank + 1)) x
  rw [List.length_append, List.length_cons] at hupTo
  rw [hperm.countP_eq] at hbefore hbehind hupTo
  have hrank : xs.countP (fun z => totalKey z < totalKey x) ≤ rank ∧
      rank < xs.countP (fun z => totalKey z ≤ totalKey x) := by
    rw [hperm.countP_eq] at hupTo
    omega
  have hmem : x ∈ xs := hperm.mem_iff.1 (List.mem_append_right _ List.mem_cons_self)
  rw [ranked]
  cases hfound : xs.find? fun x => xs.countP (fun y => totalKey y < totalKey x) ≤ rank &&
      rank < xs.countP (fun y => totalKey y ≤ totalKey x) with
  | none =>
      have hnot := List.find?_eq_none.1 hfound x hmem
      simp [hrank] at hnot
  | some y =>
      have hy := List.find?_some hfound
      simp only [Bool.and_eq_true, decide_eq_true_eq] at hy
      exact eq_of_rank hy.1 hy.2 hrank.1 hrank.2

theorem pairwise_mergeSort (xs : List Float) :
    (xs.mergeSort totalLE).Pairwise fun x y => totalLE x y = true :=
  List.pairwise_mergeSort totalLE_trans totalLE_total xs

end Sorted

end Number

namespace History

open Number

variable {xs : List Float}

/-- Of an odd number of values the median is the one in the middle. -/
theorem medianOf_odd (hodd : xs.length % 2 = 1) :
    (xs.mergeSort totalLE)[xs.length / 2]? = some (medianOf xs) := by
  have hlength : (xs.mergeSort totalLE).length = xs.length := List.length_mergeSort xs
  have hin : xs.length / 2 < (xs.mergeSort totalLE).length := by omega
  have hnot : ¬ xs.length % 2 = 0 := by omega
  simp only [medianOf, hlength, if_neg hnot, List.getD_eq_getElem?_getD,
    List.getElem?_eq_getElem hin, Option.getD_some]

/-- Of an even number of values it is half the sum of the two in the middle. -/
theorem medianOf_even (heven : xs.length % 2 = 0) (hsome : xs ≠ []) :
    ∃ a b, (xs.mergeSort totalLE)[xs.length / 2 - 1]? = some a ∧
      (xs.mergeSort totalLE)[xs.length / 2]? = some b ∧ medianOf xs = (a + b) / 2.0 := by
  have hlength : (xs.mergeSort totalLE).length = xs.length := List.length_mergeSort xs
  have hpos := List.length_pos_iff.2 hsome
  have hleft : xs.length / 2 - 1 < (xs.mergeSort totalLE).length := by omega
  have hright : xs.length / 2 < (xs.mergeSort totalLE).length := by omega
  refine ⟨_, _, List.getElem?_eq_getElem hleft, List.getElem?_eq_getElem hright, ?_⟩
  simp only [medianOf, hlength, if_pos heven, List.getD_eq_getElem?_getD,
    List.getElem?_eq_getElem hleft, List.getElem?_eq_getElem hright, Option.getD_some]

/-- **The median that sorting gives is the middle of the values.** -/
theorem medianOf_eq_middle (hsome : xs ≠ []) : medianOf xs = middle xs := by
  have hperm := List.mergeSort_perm xs totalLE
  have hsorted := pairwise_mergeSort xs
  rw [middle]
  split
  · next hodd => exact (ranked_eq_of_sorted hperm hsorted (medianOf_odd hodd)).symm
  · next hnot =>
      have heven : xs.length % 2 = 0 := by omega
      obtain ⟨a, b, ha, hb, hmedian⟩ := medianOf_even heven hsome
      rw [hmedian, ranked_eq_of_sorted hperm hsorted ha, ranked_eq_of_sorted hperm hsorted hb]

end History

end Telemetry
