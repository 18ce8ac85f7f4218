import Telemetry.Configuration
import Telemetry.Replay.Environment
import Telemetry.Word

/-!
# Settings of a replay

What a replay can be told besides the definition and the records: which column holds
the time, in which format results are written, and the limits of the expression.
The defaults are the lowest layer, then come a file and the environment.
-/

namespace Telemetry.Replay

/-- How results are written. -/
inductive Format where
  | text
  | json
  deriving DecidableEq

/-- The name of a format. -/
def Format.name : Format → String
  | text => "text"
  | json => "json"

/-- Every format. -/
def Format.all : List Format := [text, json]

/-- The format of a name. -/
def Format.ofName? (cs : List Char) : Option Format := all.find? (·.name.toList == cs)

/-- What a replay can be told. -/
structure Settings where
  timeColumn : String := "time"
  format : Format := .text
  /-- The limits of an expression whose definition has none of its own. -/
  expression : Configuration := {}
  deriving DecidableEq

/-- Why there are no settings. -/
inductive SettingsFault where
  /-- A file is missing. -/
  | missing (path : String)
  /-- A layer cannot be read, or a setting is of another kind. -/
  | malformed
  | blankTimeColumn
  /-- The limits are out of range. -/
  | limits (fault : Fault)

/-- The wording of a fault. -/
def SettingsFault.message : SettingsFault → String
  | .missing path => "Config file not found: " ++ path
  | .malformed => "Failed to load replay configuration"
  | .blankTimeColumn => "time_column must not be empty"
  | .limits fault => fault.message

namespace Setting

/-- The text that a setting is. -/
def text? : Setting → Option String
  | .text cs => some (String.ofList cs)
  | _ => none

/-- A natural number of 64 bits. -/
def size? : Setting → Option Nat
  | .integer n => if 0 ≤ n ∧ n < Word.count then some n.toNat else none
  | _ => none

/-- A word that a setting is. -/
def word? : Setting → Option Int64
  | .integer n => Word.ofInt? n
  | _ => none

/-- The order of names by their code points. -/
def before (a b : List Char) : Bool := String.ofList a < String.ofList b

/-- The format that a setting names, by its name or its number. A group names the first
of its fields, which has to be null. -/
def format? : Setting → Option Format
  | .text cs => Format.ofName? cs
  | .integer n => if 0 ≤ n then Format.all[n.toNat]? else none
  | .group fields =>
    let first? := fields.foldl
      (fun least f =>
        match least with
        | some g => if before f.1 g.1 then some f else least
        | none => some f)
      (none : Option (List Char × Setting))
    match first? with
    | some (name, .null) => Format.ofName? name
    | _ => none
  | _ => none

/-- The setting of a name, or what holds without it. -/
def readOr (fields : Fields) (name : String) (read : Setting → Option α) (default : α) : Option α :=
  match find? fields name.toList with
  | some s => read s
  | none => some default

/-- The limits that a setting says: by their names, or in their order. -/
def limits? : Setting → Option Configuration
  | .group fields => do
    let limit ← readOr fields "history_limit" size? ({} : Configuration).historyLimit
    let resolution ← readOr fields "synch_resolution_ns" word? ({} : Configuration).resolution
    return ⟨limit, resolution⟩
  | .list items => do
    let limit ← (items[0]?.map size?).getD (some ({} : Configuration).historyLimit)
    let resolution ← (items[1]?.map word?).getD (some ({} : Configuration).resolution)
    return ⟨limit, resolution⟩
  | _ => none

end Setting

namespace Settings

/-- Settings as a layer. -/
def toSetting (s : Settings) : Setting :=
  .group
    [("time_column".toList, .text s.timeColumn.toList),
     ("format".toList, .text s.format.name.toList),
     ("expression".toList,
      .group
        [("history_limit".toList, .integer s.expression.historyLimit),
         ("synch_resolution_ns".toList, .integer s.expression.resolution.toInt)])]

/-- The settings that layers say in the end. -/
def ofSetting? : Setting → Option Settings
  | .group fields => do
    let default : Settings := {}
    let column ← Setting.readOr fields "time_column" Setting.text? default.timeColumn
    let format ← Setting.readOr fields "format" Setting.format? default.format
    let limits ← Setting.readOr fields "expression" Setting.limits? default.expression
    return ⟨column, format, limits⟩
  | _ => none

/-- Refuses a column without a name and limits that are out of range. -/
def check (s : Settings) : Except SettingsFault Unit :=
  if (Text.trim s.timeColumn.toList).isEmpty then .error .blankTimeColumn
  else s.expression.check.mapError .limits

/-- The settings that the text of a file, if there is one, and variables say. -/
def load (file : Option String) (environment : List (String × String)) :
    Except SettingsFault Settings := do
  let fields ← ((file.map fun t => Setting.ofYaml? t.toList).getD (some [])).elim
    (.error .malformed) .ok
  let layers :=
    ((({} : Settings).toSetting.overlay (.group fields)).overlay (Environment.layer environment))
  let s ← (ofSetting? layers).elim (.error .malformed) .ok
  s.check
  return s

end Settings

end Telemetry.Replay
