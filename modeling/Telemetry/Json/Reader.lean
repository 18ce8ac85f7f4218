import Telemetry.Json.Tree
import Telemetry.Value

/-!
# Reading samples from JSON

The reader of what `Json.Writer` writes, with some freedom: the fields of an object
may stand in any order and among others, which do not count, and a list of the
fields in their order may stand for the object. The name of a kind may be written
as an object with that key and null. No field may stand twice.
-/

namespace Telemetry.Json

namespace Tree

/-- The text that a string is; halves of characters are none. -/
def text? : Tree → Option String
  | .string units => (textOfUnits? units).map String.ofList
  | _ => none

/-- The word that a number is. -/
def word? : Tree → Option Int64
  | .number d => d.toWord?
  | _ => none

/-- The double that a number is. -/
def float? : Tree → Option Float
  | .number d => d.toFloat?
  | _ => none

/-- The fields of an object under their names; none if a name is no text. -/
def named? (fields : List (List Nat × Tree)) : Option (List (List Char × Tree)) :=
  fields.mapM fun f => (textOfUnits? f.1).map fun name => (name, f.2)

/-- The one field of a name. -/
def field? (name : String) (fields : List (List Char × Tree)) : Option Tree :=
  match fields.filter (·.1 == name.toList) with
  | [f] => some f.2
  | _ => none

/-- Two values, given as a list of both or as the fields of an object. -/
def two? (first second : String) : Tree → Option (Tree × Tree)
  | .array [a, b] => some (a, b)
  | .object fields => do
    let fields ← named? fields
    return (← field? first fields, ← field? second fields)
  | _ => none

/-- The name of a kind. -/
def kind? : Tree → Option String
  | .string units => text? (.string units)
  | .object [(units, .null)] => text? (.string units)
  | _ => none

end Tree

/-- The value that a tree says. -/
def value? (t : Tree) : Option Value := do
  let (kind, content) ← t.two? "kind" "value"
  match ← kind.kind? with
  | "int" => content.word?.map .int
  | "float" => content.float?.map .float
  | "text" => content.text?.map .text
  | "date" => content.word?.map .date
  | _ => none

/-- The sample that a JSON text says. -/
def timed? (cs : List Char) : Option Timed := do
  let t ← Tree.ofText? cs
  let (value, time) ← t.two? "value" "timestamp"
  return ⟨← value? value, ← time.word?⟩

end Telemetry.Json
