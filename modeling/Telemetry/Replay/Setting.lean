import Telemetry.Yaml.Meaning

/-!
# Layered settings

Settings come in layers, each a tree: groups of named settings, with plain data at
the leaves. A later layer is laid over an earlier one: groups are laid over each
other name by name, and anything else replaces what it is laid over.
-/

namespace Telemetry.Replay

/-- A tree of settings. -/
inductive Setting where
  | null
  | bool (b : Bool)
  | integer (n : Int)
  | float (x : Float)
  | text (cs : List Char)
  | list (items : List Setting)
  | group (fields : List (List Char × Setting))

namespace Setting

/-- Named settings, no name twice. -/
abbrev Fields := List (List Char × Setting)

/-- The setting of a name. -/
def find? (fields : Fields) (name : List Char) : Option Setting :=
  (fields.find? (·.1 == name)).map (·.2)

/-- The fields with the setting of a name replaced or added. -/
def put (name : List Char) (s : Setting) : Fields → Fields
  | [] => [(name, s)]
  | f :: fs => if f.1 = name then (name, s) :: fs else f :: put name s fs

mutual

/-- A setting with another one laid over it. -/
def overlay (below above : Setting) : Setting :=
  match above with
  | .group fields => .group (overlayFields (match below with | .group fs => fs | _ => []) fields)
  | s => s

/-- Fields with others laid over them. -/
def overlayFields (below : Fields) (above : Fields) : Fields :=
  match above with
  | [] => below
  | (name, s) :: rest =>
    overlayFields (put name (overlay ((find? below name).getD .null) s) below) rest

end

mutual

/-- The setting that a YAML node says; of fields with one name the last one counts. -/
def ofNode? : Yaml.Node → Option Setting
  | .scalar tag style cs => (Yaml.Meaning.ofScalar? tag style cs).map ofMeaning
  | .sequence tag items => if Yaml.Node.isUntagged tag then (ofNodes? items).map .list else none
  | .mapping tag fields =>
    if Yaml.Node.isUntagged tag then (ofFields? fields).map (.group ·.reverse) else none
where
  /-- The setting of a scalar. -/
  ofMeaning : Yaml.Meaning → Setting
    | .null => .null
    | .bool b => .bool b
    | .integer n => .integer n
    | .float x => .float x
    | .text cs => .text cs

/-- The settings that YAML nodes say. -/
def ofNodes? : List Yaml.Node → Option (List Setting)
  | [] => some []
  | n :: ns => do return (← ofNode? n) :: (← ofNodes? ns)

/-- The settings of fields, last first. -/
def ofFields? : List (Yaml.Node × Yaml.Node) → Option Fields
  | [] => some []
  | (k, v) :: fs => do
    let name ← k.raw?
    let s ← ofNode? v
    let rest ← ofFields? fs
    return if rest.any (·.1 == name) then rest else rest ++ [(name, s)]

end

/-- The layer that a YAML text says. A text without a document has no settings. -/
def ofYaml? (cs : List Char) : Option Fields :=
  match Yaml.Node.ofText? cs with
  | none => none
  | some none => some []
  | some (some (.mapping _ fields)) => (ofFields? fields).map List.reverse
  | some (some (.scalar _ .plain [])) => some []
  | some (some _) => none

end Setting

end Telemetry.Replay
