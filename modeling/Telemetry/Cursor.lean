import Telemetry.Calendar.Instant

/-!
# The record cursor

Directives tell the host where to begin reading records, in which order, and by
what offset to report. A directive is plain data; the settings of a cursor keep
the latest of each sort.
-/

namespace Telemetry

/-- Where a cursor begins. -/
inductive CursorStart where
  | atRecord (record year : Int64)
  | atTime (date : Instant)
  | atNewest
  | afterNewest
  | relativeToNewest (offset : Int64)
  | atOffsetFromNewest (offset : Int64)
  deriving DecidableEq

/-- What an expression can tell the host. -/
inductive Command where
  | start (place : CursorStart)
  | order (code : Int64)
  | reportOffset (value : Int64)
  deriving DecidableEq

/-- The latest commands of each sort. -/
structure Cursor where
  start : Option CursorStart := none
  order : Option Int64 := none
  reportOffset : Option Int64 := none
  deriving DecidableEq

/-- The settings after a command. -/
def Cursor.obey (c : Cursor) : Command → Cursor
  | .start s => { c with start := some s }
  | .order code => { c with order := some code }
  | .reportOffset value => { c with reportOffset := some value }

/-- The settings after commands, in order. -/
def Cursor.obeyAll (c : Cursor) (commands : List Command) : Cursor := commands.foldl obey c

/-- Whether nothing has been set. -/
def Cursor.isEmpty (c : Cursor) : Bool :=
  c.start.isNone && c.order.isNone && c.reportOffset.isNone

end Telemetry
