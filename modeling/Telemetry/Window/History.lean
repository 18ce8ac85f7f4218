import Telemetry.Calendar.Instant
import Telemetry.Number.Real
import Telemetry.Window.Ring

/-!
# Histories of samples

A history holds finite samples, oldest first, up to a limit, together with the sum
of their values and the sum of the squares. Adding a sample adds to the sums;
evicting samples makes the sums anew from what remains, because taking an
evicted outlier off a sum would cancel the smaller samples under it. Statistics
are read off the samples and the sums.
-/

namespace Telemetry

/-- One observation. -/
structure Sample where
  time : Instant
  value : Float

/-- Finite samples, oldest first, and the sums over them. -/
structure History where
  ring : Ring Sample
  sum : Float
  squares : Float
  limit : Nat

/-- What can be asked of a history. -/
inductive Statistic where
  | average
  | maximum
  | minimum
  | median
  | total
  | deviation
  deriving DecidableEq

/-- The name of a statistic. -/
def Statistic.name : Statistic → String
  | average => "Average"
  | maximum => "Max"
  | minimum => "Min"
  | median => "Median"
  | total => "Total"
  | deviation => "StdDev"

namespace History

/-- A history without samples, which will hold at least one. -/
def empty (limit : Nat) : History := ⟨.empty, 0.0, 0.0, max limit 1⟩

/-- The samples, oldest first. -/
def samples (h : History) : List Sample := h.ring.items

/-- The number of samples. -/
def length (h : History) : Nat := h.samples.length

/-- Whether there are no samples. -/
def isEmpty (h : History) : Bool := h.samples.isEmpty

/-- The first sample. -/
def oldest? (h : History) : Option Sample := h.samples.head?

/-- The last sample. -/
def newest? (h : History) : Option Sample := h.samples.getLast?

/-- The sum and the sum of squares with one value more. -/
def accumulate (sums : Float × Float) (x : Float) : Float × Float := (sums.1 + x, sums.2 + x * x)

/-- The sums over samples, from left to right. -/
def sumsOf (samples : List Sample) : Float × Float :=
  samples.foldl (fun sums s => accumulate sums s.value) (0.0, 0.0)

/-- The history with the sums made anew. -/
def resum (h : History) : History :=
  let sums := sumsOf h.samples
  { h with sum := sums.1, squares := sums.2 }

/-- The history with one value more in its sums. -/
def account (h : History) (x : Float) : History :=
  let sums := accumulate (h.sum, h.squares) x
  { h with sum := sums.1, squares := sums.2 }

/-- Drops the oldest samples. -/
def evict (h : History) (count : Nat) : History :=
  if count = 0 then h else resum { h with ring := h.ring.drop count }

/-- Keeps only the newest samples. -/
def keepNewest (h : History) (count : Nat) : History := h.evict (h.length - count)

/-- Drops the oldest samples above the limit. -/
def enforceLimit (h : History) : History :=
  if h.length ≤ h.limit then h else h.keepNewest h.limit

/-- Drops all samples. -/
def clear (h : History) : History := { h with ring := h.ring.clear, sum := 0.0, squares := 0.0 }

/-- Whether a sample is one that histories keep. -/
def admits (s : Sample) : Bool := s.value.isFinite

/-- The samples with one more, behind those that are not later. -/
def insertByTime (s : Sample) (r : Ring Sample) : Ring Sample :=
  r.insertAt (r.place fun t => decide (t.time ≤ s.time)) s

/-- Adds a sample at the end; one that is not finite is passed over. -/
def append (h : History) (s : Sample) : History :=
  if admits s then (account { h with ring := h.ring.push s } s.value).enforceLimit else h

/-- Adds a sample in order of time, behind those of the same time; one that is not
finite is passed over. -/
def insert (h : History) (s : Sample) : History :=
  if admits s then (account { h with ring := insertByTime s h.ring } s.value).enforceLimit
  else h

/-- The values of the samples. -/
def values (h : History) : List Float := h.samples.map Sample.value

/-- The middle of values, or the mean of the two in the middle. -/
def medianOf (xs : List Float) : Float :=
  let sorted := xs.mergeSort Number.totalLE
  let middle := sorted.length / 2
  if sorted.length % 2 = 0 then (sorted.getD (middle - 1) 0.0 + sorted.getD middle 0.0) / 2.0
  else sorted.getD middle 0.0

/-- A statistic of the samples; NaN if there are none. -/
def evaluate (h : History) (stat : Statistic) : Float :=
  if h.isEmpty then 0.0 / 0.0
  else
    let n := Float.ofNat h.length
    match stat with
    | .total => h.sum
    | .average => h.sum / n
    | .maximum => h.values.foldl Number.greater (-1.0 / 0.0)
    | .minimum => h.values.foldl Number.lesser (1.0 / 0.0)
    | .median => medianOf h.values
    | .deviation =>
      let variance := (h.squares - h.sum * h.sum / n) / n
      (Number.greater variance 0.0).sqrt

/-- Making the sums anew changes no sample. -/
@[simp] theorem samples_resum (h : History) : h.resum.samples = h.samples := rfl

/-- A value more in the sums changes no sample. -/
@[simp] theorem samples_account (h : History) (x : Float) :
    (h.account x).samples = h.samples := rfl

/-- Eviction drops from the front. -/
theorem samples_evict (h : History) (count : Nat) :
    (h.evict count).samples = h.samples.drop count := by
  unfold evict
  split
  case isTrue hc => rw [hc, List.drop_zero]
  case isFalse => exact Ring.items_drop h.ring count

/-- Keeping the newest samples leaves a suffix. -/
theorem samples_keepNewest (h : History) (count : Nat) :
    (h.keepNewest count).samples = h.samples.drop (h.samples.length - count) :=
  samples_evict h _

/-- The limit leaves a suffix. -/
theorem samples_enforceLimit (h : History) :
    h.enforceLimit.samples = h.samples.drop (h.samples.length - h.limit) := by
  unfold enforceLimit
  split
  case isTrue hl =>
    have : h.samples.length - h.limit = 0 := Nat.sub_eq_zero_of_le hl
    rw [this, List.drop_zero]
  case isFalse => exact samples_keepNewest h _

/-- Eviction leaves the limit. -/
@[simp] theorem limit_evict (h : History) (count : Nat) : (h.evict count).limit = h.limit := by
  rw [evict]
  split <;> rfl

/-- Keeping the newest samples leaves the limit. -/
@[simp] theorem limit_keepNewest (h : History) (count : Nat) :
    (h.keepNewest count).limit = h.limit := limit_evict h _

/-- Enforcing the limit leaves it. -/
@[simp] theorem limit_enforceLimit (h : History) : h.enforceLimit.limit = h.limit := by
  rw [enforceLimit]
  split
  · rfl
  · exact limit_keepNewest h _

/-- A sample at the end leaves the limit. -/
@[simp] theorem limit_append (h : History) (s : Sample) : (h.append s).limit = h.limit := by
  rw [append]
  split
  · rw [limit_enforceLimit]
    rfl
  · rfl

/-- Clearing leaves the limit. -/
@[simp] theorem limit_clear (h : History) : h.clear.limit = h.limit := rfl

/-- Clearing leaves no sample. -/
@[simp] theorem samples_clear (h : History) : h.clear.samples = [] := Ring.items_clear h.ring

end History

end Telemetry
