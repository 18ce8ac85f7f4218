import Telemetry.Csv.Row
import Telemetry.Literal

/-!
# Records

The records of a table: a first row names the columns, one of which holds the time,
and every further row is a record. A cell is a literal or else a text; an empty
cell says nothing. A row with another number of fields than the first is refused,
and so is one without a time; the rows behind it are records all the same.
-/

namespace Telemetry.Replay

/-- The value of a cell. -/
def cell (cs : List Char) : Outcome Value :=
  (Literal.parse? cs).map fun v => v.getD (.text (String.ofList cs))

/-- The instant of a cell: nanoseconds, or a date and time. -/
def time? (cs : List Char) : Option Instant :=
  let cs := Text.trim cs
  match Number.readWord cs with
  | .ok t => some t
  | .error _ => Calendar.parse? cs

/-- Why a record does not count. -/
inductive RecordFault where
  | length (number : Nat) (position : Csv.Position) (found expected : Nat)
  | noTime
  | unknownTime (cs : List Char)
  | refused (fault : Fault)

/-- The wording of a fault. -/
def RecordFault.message : RecordFault → String
  | .length number position found expected =>
    "CSV error: record " ++ Nat.repr number ++ " (line: " ++ Nat.repr position.line ++
      ", byte: " ++ Nat.repr position.byte ++ "): found record with " ++ Nat.repr found ++
      " fields, but the previous record has " ++ Nat.repr expected ++ " fields"
  | .noTime => "missing time cell"
  | .unknownTime cs => "unrecognized time '" ++ String.ofList cs ++ "'"
  | .refused fault => fault.message

/-- The time of a record and the values of its cells, each with its column. -/
structure Record where
  time : Instant
  cells : List (Nat × Value)

/-- A table of records. -/
structure Table where
  columns : List (List Char)
  /-- The column that holds the time. -/
  timeIndex : Nat
  rows : List Csv.Row

namespace Table

/-- The table that a text is; none if the first row has no column of that name. -/
def ofText? (timeColumn : String) (cs : List Char) : Option Table :=
  let rows := Csv.rows cs
  let columns := ((rows.head?.map Csv.Row.fields).getD []).map Text.trim
  (columns.findIdx? (· == timeColumn.toList)).map fun i => ⟨columns, i, rows.tail⟩

/-- The values of the cells from column `index` on that are neither empty nor the
time. -/
def cells (t : Table) : Nat → List (List Char) → Outcome (List (Nat × Value))
  | _, [] => .ok []
  | index, cs :: rest => do
    if index = t.timeIndex ∨ cs.isEmpty then cells t (index + 1) rest
    else
      let v ← cell cs
      return (index, v) :: (← cells t (index + 1) rest)

/-- The record of a row, which is the `number`th. -/
def record (t : Table) (number : Nat) (row : Csv.Row) : Except RecordFault Record := do
  let fields := row.fields.map Text.trim
  if fields.length ≠ t.columns.length then
    throw (.length number row.position fields.length t.columns.length)
  let time ← fields[t.timeIndex]?.elim (.error .noTime) .ok
  let instant ← (time? time).elim (.error (.unknownTime time)) .ok
  let cells ← (t.cells 0 fields).mapError .refused
  return ⟨instant, cells⟩

end Table

end Telemetry.Replay
