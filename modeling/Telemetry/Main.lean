import Telemetry.Replay.CommandLine

/-!
# Running the program

Reads the variables of the environment and the files that the arguments name, and
hands them to `CommandLine.run`.
-/

namespace Telemetry

/-- The variables that matter to a replay. -/
def variableNames : List String :=
  ["EXPR_REPLAY_DEFINITION", "EXPR_REPLAY_RECORDS", "EXPR_REPLAY_CONFIG",
   "EXPR_REPLAY_TIME_COLUMN", "EXPR_REPLAY_FORMAT", "EXPR_REPLAY_EXPRESSION",
   "EXPR_REPLAY_EXPRESSION__HISTORY_LIMIT", "EXPR_REPLAY_EXPRESSION__SYNCH_RESOLUTION_NS"]

/-- The text of a file, if it can be read. -/
def readText (path : String) : IO (Option String) := do
  try
    return some (← IO.FS.readFile path)
  catch _ =>
    return none

/-- The files that a request names. -/
def Replay.Request.paths : Replay.Request → List String
  | .replay a => a.definition :: a.records :: a.config.toList
  | _ => []

end Telemetry

open Telemetry in
def main (args : List String) : IO UInt32 := do
  let environment ← variableNames.filterMapM fun name => do
    return (← IO.getEnv name).map fun value => (name, value)
  let paths := ((Replay.Request.ofArguments? environment args).map Replay.Request.paths).getD []
  let files ← paths.mapM fun path => do return (path, ← readText path)
  let read (path : String) : Option String := (files.find? (·.1 == path)).bind (·.2)
  let answer := Replay.CommandLine.run args environment read
  IO.print (String.ofList answer.out)
  if let some message := answer.message then
    IO.eprintln ("Error: " ++ message)
  return answer.code.toUInt32
