import Telemetry.Function
import Telemetry.Synch

/-!
# Tokens

An expression is a sequence of tokens in postfix order: constants, variables,
synchronized variables and functions. Operands leave one value; functions take
and leave what they declare.
-/

namespace Telemetry

/-- One element of a postfix sequence. -/
inductive Token where
  | constant (x : Timed)
  /-- The variable at a position of the table. -/
  | reference (id : Nat)
  | synch (s : Synch)
  | function (f : Function)

namespace Token

/-- The number of operands taken. -/
def inputs : Token → Nat
  | function f => f.inputs
  | _ => 0

/-- The number of values left. -/
def outputs : Token → Nat
  | function f => f.outputs
  | _ => 1

/-- The word for the sort of a token. -/
def kindName : Token → String
  | constant _ => "constant"
  | reference _ => "variable"
  | synch _ => "synch"
  | function _ => "function"

/-- The name of what takes operands, in faults. -/
def operatorName : Token → String
  | function f => f.name
  | _ => "operand"

/-- The name of a token for people. -/
def describe (table : VariableTable) : Token → String
  | constant x => x.value.toText
  | reference id => (table.get? id).elim "?" Variable.name
  | synch s => (table.get? s.source).elim "?" fun v => "synch(" ++ v.name ++ ")"
  | function f => f.name

/-- Whether a token remembers earlier passes. -/
def isStateful : Token → Bool
  | synch _ => true
  | function f => f.isStateful
  | _ => false

/-- Whether a token is a synchronized variable. -/
def isSynch : Token → Bool
  | synch _ => true
  | _ => false

end Token

end Telemetry
