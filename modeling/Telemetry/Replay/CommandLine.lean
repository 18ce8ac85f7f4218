import Telemetry.Replay.Arguments
import Telemetry.Replay.Run

/-!
# The program

What the program answers to its arguments: the text on standard output and the code
with which it ends, which is 0, or 1 after a failure, or 2 if the arguments are not
in order. The files are a function from paths to texts.
-/

namespace Telemetry.Replay

/-- The end of the program. -/
structure Answer where
  code : Nat
  out : List Char := []
  /-- What went wrong. -/
  message : Option String := none

/-- The end after a failure. -/
def Answer.failed (message : String) : Answer := { code := 1, message := some message }

namespace CommandLine

/-- What is written about the version. -/
def versionText : String := "expr-replay 0.1.0\n"

/-- What is written about the use. -/
def helpText : String :=
  "Replay CSV telemetry records through a postfix expression\n\n" ++
  "Usage: expr-replay [OPTIONS] --definition <DEFINITION> --records <RECORDS>\n\n" ++
  "Options:\n" ++
  "  -d, --definition <DEFINITION>    Expression definition (YAML)\n" ++
  "  -r, --records <RECORDS>          Telemetry records (CSV)\n" ++
  "  -t, --time-column <TIME_COLUMN>  Name of the time column\n" ++
  "  -c, --config <CONFIG>            Replay configuration file (YAML)\n" ++
  "  -f, --format <FORMAT>            Output format (text or json)\n" ++
  "  -v, --verbose                    Enable verbose logging\n" ++
  "  -h, --help                       Print help\n" ++
  "  -V, --version                    Print version\n"

/-- The settings of a replay: those that are loaded, with what the arguments say
instead. -/
def settings (a : Arguments) (environment : List (String × String)) (read : String → Option String) :
    Except SettingsFault Settings := do
  let file ←
    match a.config with
    | none => pure none
    | some path =>
      match read path with
      | some text => pure (some text)
      | none => throw (.missing path)
  let s ← Settings.load file environment
  return { s with
    timeColumn := a.timeColumn.getD s.timeColumn
    format := a.format.getD s.format }

/-- The message about a table without the column that holds the time. -/
def noColumn (column : String) : String := "Time column '" ++ column ++ "' not found in header"

/-- Runs a replay; the error is a message. -/
def replayWith (a : Arguments) (environment : List (String × String))
    (read : String → Option String) : Except String (Format × Run) := do
  let s ← (settings a environment read).mapError SettingsFault.message
  let text ← (read a.definition).elim (.error ("Failed to read definition: " ++ a.definition)) .ok
  let d ← (Definition.ofYaml? text.toList).elim
    (.error ("Invalid definition: " ++ a.definition)) .ok
  let e ← (d.compile s.expression).mapError Refusal.message
  let text ← (read a.records).elim (.error ("Failed to open records: " ++ a.records)) .ok
  let t ← (Table.ofText? s.timeColumn text.toList).elim (.error (noColumn s.timeColumn)) .ok
  return (s.format, replay e t s.format)

/-- The answer to a request. -/
def perform (environment : List (String × String)) (read : String → Option String) :
    Request → Answer
  | .help => { code := 0, out := helpText.toList }
  | .version => { code := 0, out := versionText.toList }
  | .replay a =>
    match replayWith a environment read with
    | .error message => .failed message
    | .ok (format, r) =>
      { code := if 0 < r.summary.failed then 1 else 0, out := Run.text (r.report format) }

/-- The answer to arguments. -/
def run (args : List String) (environment : List (String × String))
    (read : String → Option String) : Answer :=
  match Request.ofArguments? environment args with
  | some r => perform environment read r
  | none => { code := 2, message := some "the arguments are not in order" }

end CommandLine

end Telemetry.Replay
