import Telemetry.Json.Writer
import Telemetry.Replay.Settings

/-!
# Reports

What a replay writes: a line for each result and each failure, and a last line with
the counts and the cursor. In text the parts of a line stand between tabs; in JSON
every line is an object.
-/

namespace Telemetry.Replay

/-- The counts of a replay and the cursor that it leaves. -/
structure Summary where
  evaluated : Nat := 0
  /-- The records without a synchronized value. -/
  skipped : Nat := 0
  failed : Nat := 0
  cursor : Cursor := {}

/-- Date and time with as many places of the second as it needs, for no offset. -/
def stamp (t : Instant) : List Char :=
  Calendar.dateText t ++ 'T' :: Calendar.timeText t ++ ['Z']

/-- Parts of a line between tabs. -/
def tabbed (parts : List (List Char)) : List Char := List.intercalate ['\t'] parts

namespace Format

/-- The line of the result of record `number`. -/
def result (number : Nat) (x : Timed) : Format → List Char
  | .text => tabbed [Number.digits number, stamp x.time, x.value.toText.toList]
  | .json =>
    Json.object
      [("line", Json.integer number), ("timestamp", Json.integer x.time.toInt),
       ("value", Json.ofValue x.value)]

/-- The line of the failure of record `number`. -/
def failure (number : Nat) (message : String) : Format → List Char
  | .text => tabbed [Number.digits number, "error".toList, message.toList]
  | .json => Json.object [("line", Json.integer number), ("error", Json.text message.toList)]

/-- The last line. -/
def summary (s : Summary) : Format → List Char
  | .text =>
    "evaluated=".toList ++ Number.digits s.evaluated ++ " skipped=".toList ++
      Number.digits s.skipped ++ " failed=".toList ++ Number.digits s.failed ++
      " cursor=".toList ++ Json.ofCursor s.cursor
  | .json =>
    Json.object
      [("summary",
        Json.object
          [("evaluated", Json.integer s.evaluated), ("skipped", Json.integer s.skipped),
           ("failed", Json.integer s.failed), ("cursor", Json.ofCursor s.cursor)])]

end Format

end Telemetry.Replay
