import Telemetry.Cursor
import Telemetry.Literal
import Telemetry.Pass
import Telemetry.Source

/-!
# Expressions

A postfix sequence with its variables, its limits and what linking found out about
it. Tokens are appended one by one or read from source text; linking happens once
before a pass and again after tokens have been appended. An expression is
evaluated once for each record and keeps what its tokens remember in between.
-/

namespace Telemetry

/-- An expression that can be evaluated again and again. -/
structure Expression where
  tokens : List Token := []
  table : VariableTable := .empty
  config : Configuration := {}
  /-- The position of the last synchronized variable. -/
  lastSynch : Option Nat := none
  linked : Bool := false

namespace Expression

/-- An expression without tokens. -/
def new (config : Configuration) : Outcome Expression :=
  config.check.map fun _ => { config := config }

/-- Whether any token remembers earlier passes. -/
def isStateful (e : Expression) : Bool := e.tokens.any Token.isStateful

/-- The expression with one token more. -/
def push (e : Expression) (t : Token) : Expression :=
  { e with tokens := e.tokens ++ [t], linked := false }

/-- The expression with a constant, which belongs to no instant. -/
def pushConstant (e : Expression) (v : Value) : Expression := e.push (.constant (.constant v))

/-- The expression with a reference to the variable of a name, which is new in the
table if need be. -/
def pushVariable (e : Expression) (name : String) : Expression :=
  let (id, table) := e.table.intern name
  { e with table := table }.push (.reference id)

/-- The expression with the function of a name or symbol. -/
def pushFunction (e : Expression) (name : String) : Outcome Expression :=
  match Function.ofName? name e.config.historyLimit with
  | some f => .ok (e.push (.function f))
  | none => .error (.parse name "unknown function")

/-- Links the expression, unless it is linked. -/
def link (e : Expression) : Expression × Outcome Unit :=
  if e.linked then (e, .ok ())
  else
    let result := Link.link e.config e.table e.tokens
    match result.outcome with
    | .ok last => ({ e with tokens := result.tokens, lastSynch := last, linked := true }, .ok ())
    | .error fault => ({ e with tokens := result.tokens }, .error fault)

/-- Sets the variable of a name. -/
def set (e : Expression) (name : String) (sample : Timed) : Outcome Expression :=
  match e.table.position? name with
  | some id => .ok { e with table := e.table.set id sample }
  | none => .error (.unknownVariable name)

/-- The depth of the stack after tokens, by what they declare to take and leave. -/
def depth : List Token → Nat → Outcome Nat
  | [], d => .ok d
  | t :: ts, d =>
    if d < t.inputs then .error (.stackUnderflow t.operatorName t.inputs d)
    else depth ts (d - t.inputs + t.outputs)

/-- Refuses a sequence that would run out of operands or not leave one value. -/
def validate (e : Expression) : Outcome Unit := do
  let d ← depth e.tokens 0
  if d = 1 then return ()
  throw (.unbalancedStack d)

/-- Evaluates the expression once. The commands are those of the pass, in order. -/
def evaluate (e : Expression) : Expression × List Command × Outcome Timed :=
  let (e, linked) := e.link
  match linked with
  | .error fault => (e, [], .error fault)
  | .ok () =>
    let pass := Pass.run e.table e.lastSynch e.tokens
    ({ e with tokens := pass.tokens }, pass.commands, pass.outcome)

/-- The expression with one item of source text: a literal, a function or the name
of a variable, in this order. -/
def pushItem (e : Expression) (item : List Char) : Outcome Expression :=
  match Literal.parse? item with
  | .error fault => .error fault
  | .ok (some v) => .ok (e.pushConstant v)
  | .ok none =>
    let name := String.ofList item
    match Function.ofName? name e.config.historyLimit with
    | some f => .ok (e.push (.function f))
    | none =>
      if Source.isName item then .ok (e.pushVariable name)
      else .error (.parse name "not a literal, function or variable name")

/-- The expression of items, linked. Blanks around an item do not count, and an
item of blanks is none. -/
def ofItems (config : Configuration) (items : List (List Char)) : Outcome Expression := do
  let start ← new config
  let trimmed := (items.map Text.trim).filter (! ·.isEmpty)
  let e ← trimmed.foldlM pushItem start
  let (e, linked) := e.link
  linked.map fun _ => e

/-- The expression of source text, linked. -/
def ofSource (config : Configuration) (source : String) : Outcome Expression := do
  ofItems config (← Source.items source.toList)

end Expression

end Telemetry
