import Telemetry.Calendar.Period
import Telemetry.Window.History

/-!
# Retention

The four ways in which a statistic forgets: it keeps a number of samples, it keeps
the samples of an age, it starts again with a new calendar period, or it starts
again when a flag says so. Each takes a history and a new sample to the history
after it.
-/

namespace Telemetry

/-- Which age is too old. -/
inductive Boundary where
  /-- Older than the range. -/
  | exclusive
  /-- As old as the range or older. -/
  | inclusive
  deriving DecidableEq

/-- Whether an age is too old for a range. -/
def Boundary.evicts : Boundary → Int64 → Int64 → Bool
  | exclusive, age, range => range < age
  | inclusive, age, range => range ≤ age

namespace History

/-- Adds a sample and keeps the last `count`, or all if the count is not
positive. -/
def slideCount (h : History) (s : Sample) (count : Int64) : History :=
  let h := h.append s
  if 0 < count then h.keepNewest count.toInt.toNat else h

/-- The number of samples at the front that are too old; the newest never is. -/
def expired (b : Boundary) (range : Int64) (h : History) : Nat :=
  match h.newest? with
  | none => 0
  | some newest =>
    (h.samples.dropLast.takeWhile fun s =>
      b.evicts (Word.subSaturating newest.time s.time) range).length

/-- Adds a sample in order of time and drops what has become too old for the range.
A range below zero counts as zero. -/
def slideAge (b : Boundary) (h : History) (s : Sample) (range : Int64) : History :=
  let h := h.insert s
  h.evict (h.expired b (if range < 0 then 0 else range))

/-- Adds a sample, without the others if it lies in another period than the newest
of them. -/
def resetPeriod (h : History) (s : Sample) (unit : Option Calendar.Period) : History :=
  let leaves :=
    match unit, h.newest? with
    | some unit, some newest => !unit.shares newest.time s.time
    | _, _ => false
  (if leaves then h.clear else h).append s

/-- Adds a sample, without the others if the flag is set. -/
def resetFlag (h : History) (s : Sample) (flag : Bool) : History :=
  (if flag then h.clear else h).append s

end History

end Telemetry
