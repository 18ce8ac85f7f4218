import Telemetry.Proofs.Library
import Telemetry.Proofs.Ranks
import Telemetry.Window.Retention

/-!
# Histories in the order of arrival

What a history holds when samples are only ever added at its end.

* **Samples**: a finite sample is put behind the others and the end of the list is kept
  (`History.samples_append`); of several ends that are kept one after the other only the shortest
  matters (`rtake_rtake_append`, `rtake_rtake`).
* **Sums**: a history carries its sums along instead of adding them up.  They are the sums of the
  samples that it holds, from left to right, to the last bit (`History.Summed`): an addition at the
  end is one step of that fold, and an eviction folds anew.
* **Statistics**: so what is read off a history is what would be computed from its values alone
  (`Statistic.over`, `History.Summed.evaluate`).  The median is said by ranks there, and is not
  sorted out.
-/

namespace Telemetry

/-! ### Samples -/

namespace History

/-- A finite sample goes behind the others, and what there is no room for is dropped from the
front. -/
theorem samples_append (h : History) (s : Sample) :
    (h.append s).samples =
      if admits s then (h.samples ++ [s]).rtake h.limit else h.samples := by
  rw [append]
  split
  · rw [samples_enforceLimit, samples_account]
    show (h.ring.push s).items.drop ((h.ring.push s).items.length - h.limit) = _
    rw [Ring.items_push]
    rfl
  · rfl

/-- The finite samples among samples. -/
def finite (xs : List Sample) : List Sample := xs.filter admits

theorem finite_append (xs ys : List Sample) : finite (xs ++ ys) = finite xs ++ finite ys :=
  List.filter_append ..

/-- A history that is no longer than its limit takes a sample in if it is finite. -/
theorem samples_append_of_bounded {h : History} (hbounded : h.samples.length ≤ h.limit)
    (s : Sample) : (h.append s).samples = (h.samples ++ finite [s]).rtake h.limit := by
  rw [samples_append]
  by_cases hs : admits s = true
  · have hnew : finite [s] = [s] := List.filter_cons_of_pos hs
    rw [if_pos hs, hnew]
  · have hnew : finite [s] = [] := List.filter_cons_of_neg hs
    rw [if_neg hs, hnew, List.append_nil, rtake_of_length_le hbounded]

/-! ### Sums -/

/-- The sums that a history carries are those of its samples, from left to right. -/
def Summed (h : History) : Prop := (h.sum, h.squares) = sumsOf h.samples

theorem sumsOf_concat (xs : List Sample) (s : Sample) :
    sumsOf (xs ++ [s]) = accumulate (sumsOf xs) s.value := by
  rw [sumsOf, List.foldl_concat]
  rfl

/-- Each of the two sums is a fold of its own. -/
theorem sumsOf_eq (xs : List Sample) :
    sumsOf xs = ((xs.map Sample.value).foldl (fun sum x => sum + x) 0.0,
      (xs.map Sample.value).foldl (fun sum x => sum + x * x) 0.0) := by
  suffices hfrom : ∀ start : Float × Float,
      xs.foldl (fun sums s => accumulate sums s.value) start =
        ((xs.map Sample.value).foldl (fun sum x => sum + x) start.1,
          (xs.map Sample.value).foldl (fun sum x => sum + x * x) start.2) from hfrom (0.0, 0.0)
  induction xs with
  | nil => intro start; rfl
  | cons s xs ih =>
      intro start
      rw [List.foldl_cons, ih, List.map_cons, List.foldl_cons, List.foldl_cons]
      rfl

theorem summed_empty (limit : Nat) : (empty limit).Summed := rfl

/-- Whoever makes the sums anew has them right. -/
theorem summed_resum (h : History) : h.resum.Summed := rfl

theorem Summed.evict {h : History} (hsummed : h.Summed) (count : Nat) : (h.evict count).Summed := by
  rw [History.evict]
  split
  · exact hsummed
  · exact summed_resum _

theorem Summed.keepNewest {h : History} (hsummed : h.Summed) (count : Nat) :
    (h.keepNewest count).Summed := hsummed.evict _

theorem Summed.enforceLimit {h : History} (hsummed : h.Summed) : h.enforceLimit.Summed := by
  rw [History.enforceLimit]
  split
  · exact hsummed
  · exact hsummed.keepNewest _

/-- **One sample more at the end is one step more of the sums.** -/
theorem Summed.append {h : History} (hsummed : h.Summed) (s : Sample) : (h.append s).Summed := by
  rw [History.append]
  split
  · refine Summed.enforceLimit ?_
    have hitems : (h.ring.push s).items = h.samples ++ [s] := Ring.items_push h.ring s
    show accumulate (h.sum, h.squares) s.value = sumsOf (h.ring.push s).items
    rw [hitems, sumsOf_concat, ← hsummed]
  · exact hsummed

end History

/-! ### Statistics -/

/-- A statistic of values, computed from nothing else: the sums are folded from left to right, the
median is the value of the middle rank, and of no values it is NaN. -/
def Statistic.over (stat : Statistic) (xs : List Float) : Float :=
  if xs.isEmpty then 0.0 / 0.0
  else
    let n := Float.ofNat xs.length
    let sum := xs.foldl (fun sum x => sum + x) 0.0
    let squares := xs.foldl (fun sum x => sum + x * x) 0.0
    match stat with
    | .total => sum
    | .average => sum / n
    | .maximum => xs.foldl Number.greater (-1.0 / 0.0)
    | .minimum => xs.foldl Number.lesser (1.0 / 0.0)
    | .median => Number.middle xs
    | .deviation => (Number.greater ((squares - sum * sum / n) / n) 0.0).sqrt

/-- A history whose sums are right answers what its values give from scratch. -/
theorem History.Summed.evaluate {h : History} (hsummed : h.Summed) (stat : Statistic) :
    h.evaluate stat = stat.over h.values := by
  have hsums : (h.sum, h.squares) = (h.values.foldl (fun sum x => sum + x) 0.0,
      h.values.foldl (fun sum x => sum + x * x) 0.0) := hsummed.trans (sumsOf_eq h.samples)
  have hsum := congrArg Prod.fst hsums
  have hsquares := congrArg Prod.snd hsums
  have hlength : h.values.length = h.length := List.length_map ..
  have hempty : h.values.isEmpty = h.isEmpty := List.isEmpty_map
  dsimp only at hsum hsquares
  rw [History.evaluate, Statistic.over, hempty]
  cases hnone : h.isEmpty with
  | true => rfl
  | false =>
      have hvalues : h.values ≠ [] := List.isEmpty_eq_false_iff.1 (hempty.trans hnone)
      cases stat <;>
        simp only [hlength, hsum, hsquares, medianOf_eq_middle hvalues, Bool.false_eq_true, if_false]

end Telemetry
