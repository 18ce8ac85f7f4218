import Telemetry.Expression
import Telemetry.Word
import Telemetry.Yaml.Meaning

/-!
# Definitions of expressions

A definition is a YAML mapping with the name of an expression, its postfix sequence
and, perhaps, limits of its own. The sequence is a list of items, each taken as it
is written, or one text that is cut into items. Fields of other names do not count.
-/

namespace Telemetry.Replay

/-- A postfix sequence. -/
inductive Sequence where
  | items (items : List (List Char))
  | source (cs : List Char)

/-- A named expression that is not compiled yet. -/
structure Definition where
  name : String
  sequence : Sequence
  config : Option Configuration

/-- Why a definition gives no expression. -/
inductive Refusal where
  /-- The sequence cannot be cut into items. -/
  | uncut (fault : Fault)
  | uncompiled (name : String) (fault : Fault)
  | unbalanced (name : String) (fault : Fault)

/-- What went wrong in the expression. -/
def Refusal.fault : Refusal → Fault
  | .uncut fault | .uncompiled _ fault | .unbalanced _ fault => fault

/-- The wording of a refusal. -/
def Refusal.message : Refusal → String
  | .uncut fault => fault.message
  | .uncompiled name _ => "Failed to compile expression '" ++ name ++ "'"
  | .unbalanced name _ => "Expression '" ++ name ++ "' is not balanced"

namespace Definition

/-- The field of a name, or nothing; none if the name stands twice. -/
def field? (fields : List (List Char × Yaml.Node)) (name : String) : Option (Option Yaml.Node) :=
  match fields.filter (·.1 == name.toList) with
  | [] => some none
  | [f] => some (some f.2)
  | _ => none

/-- What a field says, or what holds without it. -/
def readOr (fields : List (List Char × Yaml.Node)) (name : String)
    (read : Yaml.Node → Option α) (default : α) : Option α := do
  match ← field? fields name with
  | some n => read n
  | none => some default

/-- The sequence that a node says. -/
def sequence? : Yaml.Node → Option Sequence
  | .scalar tag style cs =>
    match Yaml.Meaning.ofScalar? tag style cs with
    | some (.text cs) => some (.source cs)
    | _ => none
  | .sequence tag items =>
    if Yaml.Node.isUntagged tag then (items.mapM Yaml.Node.raw?).map .items else none
  | .mapping .. => none

/-- A natural number of 64 bits in a plain scalar. -/
def size? : Yaml.Node → Option Nat
  | .scalar _ .plain cs => (Yaml.natural? cs).filter (· < Word.count)
  | _ => none

/-- A word in a plain scalar. -/
def word? : Yaml.Node → Option Int64
  | .scalar _ .plain cs => (Yaml.integer? cs).bind Word.ofInt?
  | _ => none

/-- The limits that a node says; a node that is null says none. -/
def limits? (n : Yaml.Node) : Option (Option Configuration) :=
  if n.isNull then some none
  else do
    let fields ← n.fields?
    let limit ← readOr fields "history_limit" size? ({} : Configuration).historyLimit
    let resolution ← readOr fields "synch_resolution_ns" word? ({} : Configuration).resolution
    return some ⟨limit, resolution⟩

/-- The definition that a YAML text says. -/
def ofYaml? (cs : List Char) : Option Definition := do
  let n ← (← Yaml.Node.ofText? cs)
  let fields ← n.fields?
  let name ← (← (← field? fields "name")).raw?
  let sequence ← sequence? (← (← field? fields "postfix"))
  let config ← readOr fields "config" limits? none
  return ⟨String.ofList name, sequence, config⟩

/-- The items of the sequence. -/
def items (d : Definition) : Outcome (List (List Char)) :=
  match d.sequence with
  | .items items => .ok items
  | .source cs => Source.items cs

/-- The linked expression. Limits hold that are not its own only where it has none. -/
def compile (d : Definition) (fallback : Configuration) : Except Refusal Expression := do
  let items ← d.items.mapError .uncut
  let e ← (Expression.ofItems (d.config.getD fallback) items).mapError (.uncompiled d.name)
  e.validate.mapError (.unbalanced d.name)
  return e

end Definition

end Telemetry.Replay
