import Mathlib.Data.List.Induction
import Telemetry.Proofs.ArrivalOrder
import Telemetry.Proofs.Periods

/-!
# Windows that start again

Two ways in which a history starts again: when a flag says so, and when a sample lies in another
calendar period than the newest that is held.

* **Flags** (`History.samples_flagged`): after any calls the history holds the last of the finite
  samples since the call that had the flag last, that one included.
* **Periods** (`History.uniform_periodic`): whatever the times, the samples that are held lie in one
  period, so comparing with the newest is comparing with all of them
  (`History.Uniform.samples_resetPeriod`).  When the times never go back, what is held is the last
  of all finite samples so far in the period of the latest call
  (`History.samples_periodic_concat`), because an earlier sample of that period would have the
  whole time in between in it.
-/

namespace Telemetry

namespace History

/-! ### Flags -/

/-- The history after samples have been added one by one, each with a flag that says whether to
start again with it. -/
def flagged (limit : Nat) (calls : List (Sample × Bool)) : History :=
  calls.foldl (fun h c => h.resetFlag c.1 c.2) (.empty limit)

/-- The samples of the calls at the end that have no flag, and of the one before them; that is
the last call with the flag, unless there is none. -/
def sinceFlag (calls : List (Sample × Bool)) : List Sample :=
  (calls.rtake ((calls.rtakeWhile fun c => !c.2).length + 1)).map Prod.fst

theorem sinceFlag_concat (calls : List (Sample × Bool)) (s : Sample) (flag : Bool) :
    sinceFlag (calls ++ [(s, flag)]) = (if flag then [] else sinceFlag calls) ++ [s] := by
  rw [sinceFlag, List.rtakeWhile_concat, List.rtake_concat_succ, List.map_append]
  cases flag with
  | true =>
      show (calls.rtake 0).map Prod.fst ++ [s] = [s]
      rw [List.rtake_zero]
      rfl
  | false =>
      show (calls.rtake ((calls.rtakeWhile fun c => !c.2) ++ [(s, false)]).length).map Prod.fst ++
        [s] = _
      rw [List.length_append]
      rfl

@[simp] theorem limit_resetFlag (h : History) (s : Sample) (flag : Bool) :
    (h.resetFlag s flag).limit = h.limit := by
  rw [resetFlag, limit_append]
  split <;> rfl

theorem limit_flagged {limit : Nat} (hlimit : 1 ≤ limit) (calls : List (Sample × Bool)) :
    (flagged limit calls).limit = limit := by
  induction calls using List.reverseRecOn with
  | nil => exact Nat.max_eq_left hlimit
  | append_singleton calls c ih =>
      rw [flagged, List.foldl_concat, limit_resetFlag]
      exact ih

/-- **Flags.**  The history holds the last of the finite samples since the flag was set. -/
theorem samples_flagged {limit : Nat} (hlimit : 1 ≤ limit) (calls : List (Sample × Bool)) :
    (flagged limit calls).samples = (finite (sinceFlag calls)).rtake limit := by
  induction calls using List.reverseRecOn with
  | nil =>
      show [] = List.rtake [] limit
      rw [List.rtake_nil]
  | append_singleton calls c ih =>
      obtain ⟨s, flag⟩ := c
      have hlimits := limit_flagged hlimit calls
      have hlength := length_rtake (finite (sinceFlag calls)) limit
      have hstep : flagged limit (calls ++ [(s, flag)]) = (flagged limit calls).resetFlag s flag :=
        List.foldl_concat ..
      rw [hstep, resetFlag, sinceFlag_concat, finite_append]
      cases flag with
      | true =>
          have hbounded : (flagged limit calls).clear.samples.length ≤
              (flagged limit calls).clear.limit := by
            rw [samples_clear]
            exact Nat.zero_le _
          rw [if_pos rfl, if_pos rfl, samples_append_of_bounded hbounded, samples_clear,
            limit_clear, hlimits]
          rfl
      | false =>
          have hbounded : (flagged limit calls).samples.length ≤ (flagged limit calls).limit := by
            rw [ih, hlength, hlimits]
            omega
          rw [if_neg Bool.false_ne_true, if_neg Bool.false_ne_true,
            samples_append_of_bounded hbounded, ih, hlimits, rtake_rtake_append]

/-! ### Periods -/

/-- The history after samples have been added one by one, starting again with every other period
of a unit. -/
def periodic (u : Calendar.Period) (limit : Nat) (xs : List Sample) : History :=
  xs.foldl (fun h s => h.resetPeriod s (some u)) (.empty limit)

theorem periodic_concat (u : Calendar.Period) (limit : Nat) (xs : List Sample) (s : Sample) :
    periodic u limit (xs ++ [s]) = (periodic u limit xs).resetPeriod s (some u) :=
  List.foldl_concat ..

/-- Starting again with a sample that lies in another period than the newest. -/
theorem resetPeriod_of_newest {h : History} {newest : Sample} (hnewest : h.newest? = some newest)
    (u : Calendar.Period) (s : Sample) :
    h.resetPeriod s (some u) = (if u.shares newest.time s.time then h else h.clear).append s := by
  simp only [resetPeriod, hnewest]
  cases u.shares newest.time s.time <;> rfl

/-- A history without samples has nothing to start again from. -/
theorem resetPeriod_of_empty {h : History} (hnewest : h.newest? = none) (u : Calendar.Period)
    (s : Sample) : h.resetPeriod s (some u) = h.append s := by
  simp only [resetPeriod, hnewest]
  rfl

@[simp] theorem limit_resetPeriod (h : History) (s : Sample) (u : Calendar.Period) :
    (h.resetPeriod s (some u)).limit = h.limit := by
  cases hnewest : h.newest? with
  | none => rw [resetPeriod_of_empty hnewest, limit_append]
  | some newest =>
      rw [resetPeriod_of_newest hnewest, limit_append]
      split <;> rfl

/-- The samples of a sequence that lie in the period of an instant. -/
def inPeriod (u : Calendar.Period) (t : Instant) (xs : List Sample) : List Sample :=
  xs.filter fun s => u.shares s.time t

theorem inPeriod_append (u : Calendar.Period) (t : Instant) (xs ys : List Sample) :
    inPeriod u t (xs ++ ys) = inPeriod u t xs ++ inPeriod u t ys := List.filter_append ..

theorem shares_of_mem_inPeriod {u : Calendar.Period} {t : Instant} {xs : List Sample} {s : Sample}
    (h : s ∈ inPeriod u t xs) : u.shares s.time t = true := (List.mem_filter.1 h).2

/-- Samples that all lie in the period of an instant. -/
theorem inPeriod_eq_self {u : Calendar.Period} {t : Instant} {xs : List Sample}
    (h : ∀ s ∈ xs, u.shares s.time t = true) : inPeriod u t xs = xs := List.filter_eq_self.2 h

/-- Instants of one period have the same samples in it. -/
theorem inPeriod_congr {u : Calendar.Period} {s t : Instant} (h : u.shares s t = true)
    (xs : List Sample) : inPeriod u t xs = inPeriod u s xs := by
  have hkey : u.key s = u.key t := Calendar.Period.shares_iff.1 h
  refine List.filter_congr fun x _ => ?_
  rw [Calendar.Period.shares, Calendar.Period.shares, hkey]

/-- A sample lies in its own period. -/
theorem inPeriod_finite_singleton (u : Calendar.Period) (s : Sample) :
    inPeriod u s.time (finite [s]) = finite [s] := by
  refine inPeriod_eq_self fun t ht => ?_
  rw [List.mem_singleton.1 (List.mem_filter.1 ht).1]
  exact Calendar.Period.shares_refl u s.time

/-- All samples lie in one period of a unit, and there is room for them. -/
structure Uniform (u : Calendar.Period) (limit : Nat) (h : History) : Prop where
  limit_eq : h.limit = limit
  bounded : h.samples.length ≤ limit
  shared : ∀ s ∈ h.samples, ∀ t ∈ h.samples, u.shares s.time t.time = true

namespace Uniform

variable {u : Calendar.Period} {limit : Nat} {h : History}

/-- **The newest stands for all.**  Of the samples those stay that lie in the period of the new
one. -/
theorem samples_resetPeriod (huniform : Uniform u limit h) (s : Sample) :
    (h.resetPeriod s (some u)).samples =
      (inPeriod u s.time h.samples ++ finite [s]).rtake limit := by
  have hbounded : h.samples.length ≤ h.limit := huniform.bounded.trans_eq huniform.limit_eq.symm
  cases hnewest : h.newest? with
  | none =>
      have hnil : h.samples = [] := List.getLast?_eq_none_iff.1 hnewest
      rw [resetPeriod_of_empty hnewest, samples_append_of_bounded hbounded, hnil,
        huniform.limit_eq]
      rfl
  | some newest =>
      have hmem : newest ∈ h.samples := List.mem_of_getLast? hnewest
      rw [resetPeriod_of_newest hnewest]
      by_cases hshares : u.shares newest.time s.time = true
      · have hall : inPeriod u s.time h.samples = h.samples := by
          refine inPeriod_eq_self fun t ht => ?_
          exact Calendar.Period.shares_trans (huniform.shared t ht newest hmem) hshares
        rw [if_pos hshares, samples_append_of_bounded hbounded, hall, huniform.limit_eq]
      · have hnone : inPeriod u s.time h.samples = [] := by
          refine List.filter_eq_nil_iff.2 fun t ht hts => hshares ?_
          exact Calendar.Period.shares_trans (huniform.shared newest hmem t ht) hts
        have hcleared : h.clear.samples.length ≤ h.clear.limit := by
          rw [samples_clear]
          exact Nat.zero_le _
        rw [if_neg hshares, samples_append_of_bounded hcleared, hnone, samples_clear, limit_clear,
          huniform.limit_eq]

/-- **One sample more.** -/
theorem resetPeriod (huniform : Uniform u limit h) (s : Sample) :
    Uniform u limit (h.resetPeriod s (some u)) := by
  have hsamples := huniform.samples_resetPeriod s
  -- all that stay lie in the period of the new sample
  have hnew : ∀ t ∈ (h.resetPeriod s (some u)).samples, u.shares t.time s.time = true := by
    intro t ht
    rw [hsamples] at ht
    rcases List.mem_append.1 ((rtake_suffix _ _).mem ht) with ht | ht
    · exact (List.mem_filter.1 ht).2
    · rw [List.mem_singleton.1 (List.mem_filter.1 ht).1]
      exact Calendar.Period.shares_refl u s.time
  refine ⟨?_, ?_, fun t ht v hv => ?_⟩
  · rw [limit_resetPeriod, huniform.limit_eq]
  · rw [hsamples, length_rtake]
    omega
  · exact Calendar.Period.shares_trans (hnew t ht) (Calendar.Period.shares_symm (hnew v hv))

end Uniform

variable {u : Calendar.Period} {limit : Nat}

/-- Whatever the times of the samples, those that are held lie in one period. -/
theorem uniform_periodic (hlimit : 1 ≤ limit) (u : Calendar.Period) (xs : List Sample) :
    Uniform u limit (periodic u limit xs) := by
  induction xs using List.reverseRecOn with
  | nil =>
      refine ⟨Nat.max_eq_left hlimit, Nat.zero_le _, fun s hs => ?_⟩
      exact absurd hs List.not_mem_nil
  | append_singleton xs s ih =>
      rw [periodic_concat]
      exact ih.resetPeriod s

/-- **Periods in order.**  When the times never go back, the history holds the last of the finite
samples in the period of the latest call. -/
theorem samples_periodic_concat (hlimit : 1 ≤ limit) (u : Calendar.Period) (xs : List Sample)
    (last : Sample) (hordered : (xs ++ [last]).Pairwise fun s t => s.time ≤ t.time) :
    (periodic u limit (xs ++ [last])).samples =
      (inPeriod u last.time (finite (xs ++ [last]))).rtake limit := by
  have hstep : ∀ (ys : List Sample) (s : Sample), (periodic u limit (ys ++ [s])).samples =
      (inPeriod u s.time (periodic u limit ys).samples ++ finite [s]).rtake limit := by
    intro ys s
    rw [periodic_concat, (uniform_periodic hlimit u ys).samples_resetPeriod]
  rw [hstep, finite_append, inPeriod_append, inPeriod_finite_singleton]
  induction xs using List.reverseRecOn generalizing last with
  | nil => rfl
  | append_singleton xs before ih =>
      obtain ⟨hfront, -, hlast⟩ := List.pairwise_append.1 hordered
      have hle : ∀ s ∈ xs ++ [before], s.time ≤ before.time := by
        intro s hs
        rcases List.mem_append.1 hs with hs | hs
        · exact (List.pairwise_append.1 hfront).2.2 s hs before (List.mem_singleton.2 rfl)
        · rw [List.mem_singleton.1 hs]
          exact Int64.le_refl _
      have hbefore : before.time ≤ last.time :=
        hlast before (List.mem_append_right xs (List.mem_singleton.2 rfl))
        last (List.mem_singleton.2 rfl)
      have hheld : (periodic u limit (xs ++ [before])).samples =
          (inPeriod u before.time (finite (xs ++ [before]))).rtake limit := by
        rw [hstep, finite_append, inPeriod_append, inPeriod_finite_singleton]
        exact ih before hfront
      have hmem : ∀ s ∈ (periodic u limit (xs ++ [before])).samples,
          s ∈ xs ++ [before] ∧ u.shares s.time before.time = true := by
        intro s hs
        rw [hheld] at hs
        have hin := (rtake_suffix _ _).mem hs
        exact ⟨(List.mem_filter.1 (List.mem_filter.1 hin).1).1, shares_of_mem_inPeriod hin⟩
      by_cases hshares : u.shares before.time last.time = true
      · -- the period goes on: all that is held stays, and nothing else has been in it
        have hall : inPeriod u last.time (periodic u limit (xs ++ [before])).samples =
            (periodic u limit (xs ++ [before])).samples :=
          inPeriod_eq_self fun s hs => Calendar.Period.shares_trans (hmem s hs).2 hshares
        rw [hall, hheld, inPeriod_congr hshares, rtake_rtake_append]
      · -- a new period begins: nothing that came before can lie in it
        have hnone : ∀ s ∈ xs ++ [before], u.shares s.time last.time ≠ true :=
          fun s hs hs' => hshares (Calendar.Period.shares_between (hle s hs) hbefore hs')
        have hheldNone : inPeriod u last.time (periodic u limit (xs ++ [before])).samples = [] :=
          List.filter_eq_nil_iff.2 fun s hs => hnone s (hmem s hs).1
        have hallNone : inPeriod u last.time (finite (xs ++ [before])) = [] :=
          List.filter_eq_nil_iff.2 fun s hs => hnone s (List.mem_filter.1 hs).1
        rw [hheldNone, hallNone]

/-- **Windows that start again.**  A history that has room for at least one sample and starts again
with a flag holds the last of the finite samples since the call that had the flag last, that one
included, or of all if none had it.  One that starts again with every period of a unit holds samples
of one period only; and when the times of the calls never go back, it holds the last of the finite
samples so far in the period of the latest call. -/
theorem samples_started_again {limit : Nat} (hlimit : 1 ≤ limit) :
    (∀ calls, (flagged limit calls).samples = (finite (sinceFlag calls)).rtake limit) ∧
      ∀ u : Calendar.Period,
        (∀ xs, ∀ s ∈ (periodic u limit xs).samples, ∀ t ∈ (periodic u limit xs).samples,
          u.shares s.time t.time = true) ∧
        ∀ xs last, (xs ++ [last]).Pairwise (fun s t => s.time ≤ t.time) →
          (periodic u limit (xs ++ [last])).samples =
            (inPeriod u last.time (finite (xs ++ [last]))).rtake limit := by
  refine ⟨samples_flagged hlimit, fun u => ⟨fun xs => (uniform_periodic hlimit u xs).shared, ?_⟩⟩
  exact fun xs last hordered => samples_periodic_concat hlimit u xs last hordered

/-- Samples up to the end of an hour; the last, which is not finite, begins the next one. -/
def towardsNextHour : List Sample := [⟨3599000000000, 1.0⟩, ⟨3600000000000, 0.0 / 0.0⟩]

/-- A sample in the next hour. -/
def inNextHour : Sample := ⟨3601000000000, 2.0⟩

/-- The sample that is not finite has cleared the hour before, and the next one is held alone. -/
theorem samples_started_again_hour :
    1 ≤ 2 ∧ (towardsNextHour ++ [inNextHour]).Pairwise (fun s t => s.time ≤ t.time) ∧
      (periodic .hour 2 (towardsNextHour ++ [inNextHour])).samples =
        (inPeriod .hour inNextHour.time (finite (towardsNextHour ++ [inNextHour]))).rtake 2 ∧
      (periodic .hour 2 (towardsNextHour ++ [inNextHour])).samples.map Sample.time =
        [3601000000000] := by
  have hordered : (towardsNextHour ++ [inNextHour]).Pairwise fun s t => s.time ≤ t.time := by
    have htimes : ((towardsNextHour ++ [inNextHour]).map Sample.time).Pairwise (· ≤ ·) := by
      decide
    exact List.pairwise_map.1 htimes
  have hroom : 1 ≤ 2 := by decide
  exact ⟨hroom, hordered, ((samples_started_again hroom).2 .hour).2 _ _ hordered,
    by decide +kernel⟩

end History

end Telemetry
