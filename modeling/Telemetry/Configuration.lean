import Telemetry.Fault
import Telemetry.Number.Integer

/-!
# Configuration of expressions

The limits that hold for every function and variable of an expression that
remembers something.
-/

namespace Telemetry

/-- The limits of an expression. -/
structure Configuration where
  /-- The most samples that one history holds. -/
  historyLimit : Nat := 100000
  /-- The distance of the keys of synchronized variables, in nanoseconds. -/
  resolution : Int64 := 1000000000
  deriving DecidableEq

/-- Refuses limits that are out of range. -/
def Configuration.check (c : Configuration) : Outcome Unit :=
  if c.historyLimit = 0 then .error (.config "history_limit must be at least 1")
  else if c.resolution ≤ 0 then
    .error (.config
      ("synch_resolution_ns must be positive, got " ++
        String.ofList (Number.integerText c.resolution.toInt)))
  else .ok ()

end Telemetry
