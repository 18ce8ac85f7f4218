import Telemetry.Configuration
import Telemetry.Token

/-!
# Linking

Before the first pass an expression is linked. `Alias` takes a variable and a text
and lets the variable stand wherever the variable of that name is referred to;
`ValueSynch` has every reference to its variable replaced by a synchronized one.
All references are collected before any is replaced. The operands have to stand
right in front of the function.
-/

namespace Telemetry.Link

/-- Whether a token is the function that gives second names. -/
def isAlias : Token → Bool
  | .function .secondName => true
  | _ => false

/-- Whether a token is the function that asks for synchronization. -/
def isValueSynch : Token → Bool
  | .function .valueSynch => true
  | _ => false

/-- The token `back` places in front of position `i`. -/
def before? (tokens : List Token) (i back : Nat) : Option Token :=
  if back ≤ i then tokens[i - back]? else none

/-- The placeholder and the variable that the alias at position `i` binds, if its
name is in use for another variable. -/
def aliasAt (table : VariableTable) (tokens : List Token) (i : Nat) : Outcome (Option (Nat × Nat)) :=
  let refuse (reason : String) : Outcome (Option (Nat × Nat)) :=
    .error (.invalidLink Function.secondName.name reason)
  match before? tokens i 2, before? tokens i 1 with
  | some (.reference target), some (.constant ⟨.text name, _⟩) =>
    .ok ((table.position? name).bind fun placeholder =>
      if placeholder = target then none else some (placeholder, target))
  | some (.reference _), some _ => refuse "second operand must be a text constant"
  | some _, some _ => refuse "first operand must be a variable"
  | _, _ => refuse "missing operands"

/-- The placeholders and variables of all aliases, in order. -/
def aliases (table : VariableTable) (tokens : List Token) : Outcome (List (Nat × Nat)) := do
  let found ← (List.range tokens.length).mapM fun i =>
    match tokens[i]? with
    | some t => if isAlias t then aliasAt table tokens i else .ok none
    | none => .ok none
  return found.filterMap id

/-- References to the placeholder become references to the variable. -/
def rename (pair : Nat × Nat) : Token → Token
  | .reference id => .reference (if id = pair.1 then pair.2 else id)
  | t => t

/-- The tokens with the aliases applied one after the other. -/
def applyAliases (pairs : List (Nat × Nat)) (tokens : List Token) : List Token :=
  pairs.foldl (fun tokens pair => tokens.map (rename pair)) tokens

/-- The variable that the request for synchronization at position `i` names. -/
def targetAt (tokens : List Token) (i : Nat) : Outcome Nat :=
  let refuse (reason : String) : Outcome Nat :=
    .error (.invalidLink Function.valueSynch.name reason)
  match before? tokens i 1 with
  | some (.reference id) => .ok id
  | some (.synch s) => .ok s.source
  | some (.function .secondName) =>
    match before? tokens i 3 with
    | some (.reference id) => .ok id
    | some (.synch s) => .ok s.source
    | _ => refuse "alias has no variable"
  | some _ => refuse "operand must be a variable"
  | none => refuse "missing operand"

/-- The variables to be synchronized, in order. -/
def targets (tokens : List Token) : Outcome (List Nat) := do
  let found ← (List.range tokens.length).mapM fun i =>
    match tokens[i]? with
    | some t => if isValueSynch t then (targetAt tokens i).map some else .ok none
    | none => .ok none
  return found.filterMap id

/-- References to a variable to be synchronized become synchronized. -/
def wrap (config : Configuration) (ids : List Nat) : Token → Token
  | .reference id =>
    if id ∈ ids then .synch (.empty id config.resolution config.historyLimit) else .reference id
  | t => t

/-- The position of the last synchronized variable. -/
def lastSynch? : List Token → Option Nat
  | [] => none
  | t :: ts =>
    match lastSynch? ts with
    | some i => some (i + 1)
    | none => if t.isSynch then some 0 else none

/-- What linking makes of the tokens. A refused request for synchronization leaves
the aliases applied. -/
structure Linked where
  tokens : List Token
  outcome : Outcome (Option Nat)

/-- Links the tokens of an expression. -/
def link (config : Configuration) (table : VariableTable) (tokens : List Token) : Linked :=
  match aliases table tokens with
  | .error fault => ⟨tokens, .error fault⟩
  | .ok pairs =>
    let renamed := applyAliases pairs tokens
    match targets renamed with
    | .error fault => ⟨renamed, .error fault⟩
    | .ok ids =>
      let wrapped := renamed.map (wrap config ids)
      ⟨wrapped, .ok (lastSynch? wrapped)⟩

end Telemetry.Link
