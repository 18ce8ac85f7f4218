import Telemetry.Window.History

/-!
# Running calculations

Calculations that carry a few numbers from one sample to the next: the integral
over time, the rate of change and the difference from the sample before. Samples
that are not finite change nothing.
-/

namespace Telemetry

/-- The seconds between two instants. -/
def secondsBetween (a b : Instant) : Float :=
  Float.ofInt (b.toInt - a.toInt) / 1000000000.0

/-- The integral so far, and the time up to which it goes. -/
structure Integral where
  last : Option Instant := none
  total : Float := 0.0

/-- Adds the sample's value over the time since the last sample. Late and repeated
samples change nothing; the first one only starts the clock. -/
def Integral.update (i : Integral) (s : Sample) (factor : Float) : Float × Integral :=
  if !s.value.isFinite then (i.total, i)
  else
    match i.last with
    | none => (0.0, { i with last := some s.time })
    | some last =>
      let elapsed := secondsBetween last s.time
      if elapsed ≤ 0.0 then (i.total, i)
      else
        let total := i.total + s.value * elapsed * factor
        (total, ⟨some s.time, total⟩)

/-- The sample before, from which a rate is taken. -/
structure Rate where
  last : Option Sample := none

/-- The change per second since the sample before; zero for the first sample and
where no time has passed. -/
def Rate.update (r : Rate) (s : Sample) : Float × Rate :=
  if !s.value.isFinite then (0.0 / 0.0, r)
  else
    let rate :=
      match r.last with
      | none => 0.0
      | some last =>
        let elapsed := secondsBetween last.time s.time
        if 0.0 < elapsed then (s.value - last.value) / elapsed else 0.0
    (rate, ⟨some s⟩)

/-- The value before, from which a difference is taken. -/
structure Difference where
  last : Option Float := none

/-- The change since the value before; zero for the first one. -/
def Difference.update (d : Difference) (x : Float) : Float × Difference :=
  if !x.isFinite then (0.0 / 0.0, d)
  else
    (match d.last with
      | none => 0.0
      | some last => x - last,
    ⟨some x⟩)

end Telemetry
