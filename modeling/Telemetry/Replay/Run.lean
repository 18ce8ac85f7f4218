import Telemetry.Replay.Definition
import Telemetry.Replay.Record
import Telemetry.Replay.Report

/-!
# Replays

A replay takes the records of a table one after the other: the cells of a record
are assigned to the variables of their columns' names, then the expression is
evaluated. A record without a synchronized value is passed over in silence; any
other failure is reported and does not end the replay.
-/

namespace Telemetry.Replay

/-- What a replay has come to. -/
structure Run where
  expression : Expression
  summary : Summary := {}
  /-- The lines of the report, last first. -/
  lines : List (List Char) := []

namespace Run

/-- The variable that a column feeds, if the expression reads one of its name. -/
def target? (t : Table) (e : Expression) (column : Nat) : Option String :=
  if column = t.timeIndex then none
  else
    t.columns[column]?.bind fun name =>
      let name := String.ofList name
      (e.table.position? name).map fun _ => name

/-- The expression with the cells of a record assigned. -/
def assign (t : Table) (r : Record) (e : Expression) : Outcome Expression :=
  r.cells.foldlM
    (fun e c =>
      match target? t e c.1 with
      | some name => e.set name ⟨c.2, r.time⟩
      | none => .ok e)
    e

/-- Counts and reports a failure. -/
def fail (format : Format) (number : Nat) (fault : RecordFault) (s : Run) : Run :=
  match fault with
  | .refused .synchronizationUnavailable =>
    { s with summary := { s.summary with skipped := s.summary.skipped + 1 } }
  | _ =>
    { s with
      summary := { s.summary with failed := s.summary.failed + 1 }
      lines := format.failure number fault.message :: s.lines }

/-- Counts and reports a result. -/
def succeed (format : Format) (number : Nat) (x : Timed) (s : Run) : Run :=
  { s with
    summary := { s.summary with evaluated := s.summary.evaluated + 1 }
    lines := format.result number x :: s.lines }

/-- Takes one row, which is the `number`th. -/
def step (t : Table) (format : Format) (number : Nat) (row : Csv.Row) (s : Run) : Run :=
  match t.record number row with
  | .error fault => s.fail format number fault
  | .ok record =>
    match assign t record s.expression with
    | .error fault => s.fail format number (.refused fault)
    | .ok e =>
      let (e, commands, outcome) := e.evaluate
      let s :=
        { s with
          expression := e
          summary := { s.summary with cursor := s.summary.cursor.obeyAll commands } }
      match outcome with
      | .ok x => s.succeed format number x
      | .error fault => s.fail format number (.refused fault)

/-- Takes rows, the first of which is the `number`th. -/
def steps (t : Table) (format : Format) : Nat → List Csv.Row → Run → Run
  | _, [], s => s
  | number, row :: rows, s => steps t format (number + 1) rows (s.step t format number row)

/-- The lines of the report, the summary included. -/
def report (format : Format) (s : Run) : List (List Char) :=
  (format.summary s.summary :: s.lines).reverse

/-- Lines, each with its end. -/
def text (lines : List (List Char)) : List Char := lines.flatMap (· ++ ['\n'])

end Run

/-- Replays all records of a table. -/
def replay (e : Expression) (t : Table) (format : Format) : Run :=
  Run.steps t format 1 t.rows { expression := e }

end Telemetry.Replay
