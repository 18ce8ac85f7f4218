import Telemetry.Cursor
import Telemetry.Number.Notation
import Telemetry.Text.Escape
import Telemetry.Value

/-!
# Writing JSON

The compact JSON forms of values and of cursor settings. Objects are written with
their fields in the order given. A double that is not finite has no number and
is written as null.
-/

namespace Telemetry.Json

/-- An object of texts that are JSON already. -/
def object (fields : List (String × List Char)) : List Char :=
  let texts := fields.map fun f => Text.quote f.1.toList ++ ':' :: f.2
  '{' :: (List.intercalate [','] texts ++ ['}'])

/-- A text. -/
def text (cs : List Char) : List Char := Text.quote cs

/-- An integer. -/
def integer (x : Int) : List Char := Number.integerText x

/-- A double, or null for one that has no number. -/
def float (x : Float) : List Char :=
  if x.isFinite then Number.signed.finiteText x else "null".toList

/-- A value, or null where there is none. -/
def optional (f : α → List Char) : Option α → List Char
  | some x => f x
  | none => "null".toList

/-- The name of a kind and the value. -/
def ofValue : Value → List Char
  | .int i => object [("kind", text "int".toList), ("value", integer i.toInt)]
  | .float x => object [("kind", text "float".toList), ("value", float x)]
  | .text s => object [("kind", text "text".toList), ("value", text s.toList)]
  | .date t => object [("kind", text "date".toList), ("value", integer t.toInt)]

/-- A value and its time. -/
def ofTimed (x : Timed) : List Char :=
  object [("value", ofValue x.value), ("timestamp", integer x.time.toInt)]

/-- An object that starts with the name of a mode. -/
def mode (name : String) (fields : List (String × Int64)) : List Char :=
  object (("mode", text name.toList) :: fields.map fun f => (f.1, integer f.2.toInt))

/-- Where a cursor begins. -/
def ofStart : CursorStart → List Char
  | .atRecord record year => mode "at_record" [("record", record), ("year", year)]
  | .atTime date => mode "at_time" [("date", date)]
  | .atNewest => mode "at_newest" []
  | .afterNewest => mode "after_newest" []
  | .relativeToNewest offset => mode "relative_to_newest" [("offset", offset)]
  | .atOffsetFromNewest offset => mode "at_offset_from_newest" [("offset", offset)]

/-- The settings of a cursor, null where nothing has been set. -/
def ofCursor (c : Cursor) : List Char :=
  object
    [("start", optional ofStart c.start),
     ("order_option", optional (fun code => integer code.toInt) c.order),
     ("report_offset", optional (fun value => integer value.toInt) c.reportOffset)]

end Telemetry.Json
