import Telemetry.Operator.Analysis
import Telemetry.Operator.Arithmetic
import Telemetry.Operator.Conversion
import Telemetry.Operator.Dating
import Telemetry.Operator.Directive
import Telemetry.Operator.Logic
import Telemetry.Operator.Textual
import Telemetry.Stack
import Telemetry.Window.Aggregate
import Telemetry.Window.Running

/-!
# Functions

The closed set of functions that an expression can call: stateless operators,
windowed statistics and running calculations with their private state, the two
functions that only linking gives a meaning, and directives. A call takes the
operands that the function works on; what it gives back are its results, itself
in its next state, and commands for the host. What a function declares to take,
for validation, is a table apart from that, and `inputs_eq_takes` says that the
two agree.
-/

namespace Telemetry

/-- The stateless operators. -/
inductive Operator where
  | arithmetic (op : Arithmetic)
  | comparison (op : Comparison)
  | bitwise (op : Bitwise)
  | analysis (op : Analysis)
  | textual (op : Textual)
  | conversion (op : Conversion)
  | dating (op : Dating)
  deriving DecidableEq

namespace Operator

/-- Every stateless operator. -/
def all : List Operator :=
  Arithmetic.all.map arithmetic ++ Comparison.all.map comparison ++ Bitwise.all.map bitwise ++
    Analysis.all.map analysis ++ Textual.all.map textual ++ Conversion.all.map conversion ++
    Dating.all.map dating

/-- The name of an operator. -/
def name : Operator → String
  | arithmetic op => op.name
  | comparison op => op.name
  | bitwise op => op.name
  | analysis op => op.name
  | textual op => op.name
  | conversion op => op.name
  | dating op => op.name

/-- The symbol that stands for an operator besides its name. -/
def symbol? : Operator → Option String
  | arithmetic op => op.symbol?
  | comparison op => some op.symbol
  | textual .concat => some "&"
  | _ => none

/-- The number of operands that an operator declares. -/
def arity : Operator → Nat
  | arithmetic op => op.arity
  | comparison op => op.arity
  | bitwise op => op.arity
  | analysis op => op.arity
  | textual op => op.arity
  | conversion op => op.arity
  | dating op => op.arity

/-- The rule by which an operator computes its result. -/
def rule : Operator → Rule
  | arithmetic op => op.rule
  | comparison op => op.rule
  | bitwise op => op.rule
  | analysis op => op.rule
  | textual op => op.rule
  | conversion op => op.rule
  | dating op => op.rule

/-- An operator takes as many operands as it declares. -/
theorem takes_rule (op : Operator) : op.rule.takes = op.arity := by
  cases op with
  | arithmetic op => exact op.takes_rule
  | comparison op => exact op.takes_rule
  | bitwise op => exact op.takes_rule
  | analysis op => exact op.takes_rule
  | textual op => exact op.takes_rule
  | conversion op => exact op.takes_rule
  | dating op => exact op.takes_rule

end Operator

/-- The running calculations. -/
inductive Incremental where
  | integrate (state : Integral)
  | rateOfChange (state : Rate)
  | delta (state : Difference)

namespace Incremental

/-- Every running calculation, before its first sample. -/
def all : List Incremental := [integrate {}, rateOfChange {}, delta {}]

/-- The name of a running calculation. -/
def name : Incremental → String
  | integrate _ => "Integrate"
  | rateOfChange _ => "RateOfChange"
  | delta _ => "Delta"

/-- The number of operands that a calculation declares. -/
def arity : Incremental → Nat
  | integrate _ => 2
  | _ => 1

/-- The number of operands that a calculation takes: a value, and the factor of an
integral. -/
def takes : Incremental → Nat
  | integrate _ => 2
  | rateOfChange _ => 1
  | delta _ => 1

/-- A calculation takes as many operands as it declares. -/
theorem takes_eq_arity (i : Incremental) : i.takes = i.arity := by cases i <;> rfl

/-- A factor, which has to be finite. -/
def factor (function : String) (v : Value) : Outcome Float := do
  let x ← v.toFloat function
  if x.isFinite then return x
  throw (.typeMismatch function "finite factor" (String.ofList (Number.messageText x)))

/-- The result on operands given oldest first, and the calculation after it. -/
def apply (i : Incremental) (operands : List Timed) : Outcome (Timed × Incremental) :=
  match i, operands with
  | integrate state, [value, control] => do
    let x ← value.value.toFloat i.name
    let f ← factor i.name control.value
    let (total, state) := state.update ⟨value.time, x⟩ f
    return (⟨.float total, newest operands⟩, integrate state)
  | rateOfChange state, [value] => do
    let x ← value.value.toFloat i.name
    let (rate, state) := state.update ⟨value.time, x⟩
    return (⟨.float rate, newest operands⟩, rateOfChange state)
  | delta state, [value] => do
    let x ← value.value.toFloat i.name
    let (change, state) := state.update x
    return (⟨.float change, newest operands⟩, delta state)
  | i, operands => .error (.stackUnderflow i.name i.takes operands.length)

end Incremental

/-- The functions. -/
inductive Function where
  | operator (op : Operator)
  | aggregate (a : Aggregate)
  | incremental (i : Incremental)
  /-- Gives a variable a second name, in linking. -/
  | secondName
  /-- Asks for a variable to be synchronized, in linking. -/
  | valueSynch
  | directive (d : Directive)

/-- What a call gives back. -/
structure Answer where
  results : List Timed
  next : Function
  commands : List Command := []

namespace Function

/-- The name of a function. -/
def name : Function → String
  | operator op => op.name
  | aggregate a => a.name
  | incremental i => i.name
  | secondName => "Alias"
  | valueSynch => "ValueSynch"
  | directive d => d.name

/-- The number of operands that a function declares. -/
def inputs : Function → Nat
  | operator op => op.arity
  | aggregate _ => 2
  | incremental i => i.arity
  | secondName => 2
  | valueSynch => 1
  | directive d => d.arity

/-- The number of operands that a call takes off the stack. -/
def takes : Function → Nat
  | operator op => op.rule.takes
  | aggregate _ => 2
  | incremental i => i.takes
  | secondName => 2
  | valueSynch => 1
  | directive d => d.form.takes

/-- **A function takes as many operands as it declares.** -/
theorem inputs_eq_takes (f : Function) : f.inputs = f.takes := by
  cases f with
  | operator op => exact op.takes_rule.symm
  | aggregate _ => rfl
  | incremental i => exact i.takes_eq_arity.symm
  | secondName => rfl
  | valueSynch => rfl
  | directive d => exact d.takes_form.symm

/-- The number of results left. -/
def outputs : Function → Nat
  | directive _ => 0
  | _ => 1

/-- Whether a function remembers earlier calls. -/
def isStateful : Function → Bool
  | aggregate _ | incremental _ => true
  | _ => false

/-- The answer on operands given oldest first. -/
def call (f : Function) (operands : List Timed) : Outcome Answer :=
  match f, operands with
  | operator op, operands => (op.rule.apply op.name operands).map fun r => ⟨[r], f, []⟩
  | aggregate a, [value, control] =>
    (a.apply value control).map fun (r, a) => ⟨[r], aggregate a, []⟩
  | incremental i, operands => (i.apply operands).map fun (r, i) => ⟨[r], incremental i, []⟩
  | secondName, [operand, label] =>
    if label.value.isText then .ok ⟨[operand], f, []⟩
    else .error (.typeMismatch f.name "alias name text" label.value.kindName)
  | valueSynch, [operand] => .ok ⟨[operand], f, []⟩
  | directive d, operands => (d.form.apply d.name operands).map fun c => ⟨[], f, [c]⟩
  | f, operands => .error (.stackUnderflow f.name f.takes operands.length)

/-- Whether two names differ at most in the case of ASCII letters. -/
def sameName (a b : String) : Bool := a.toList.map Char.toLower == b.toList.map Char.toLower

/-- The function that a name or a symbol denotes, without memory; symbols are exact
and names free in the case of their letters. -/
def ofName? (name : String) (limit : Nat) : Option Function :=
  let functions :=
    [secondName, valueSynch] ++ Operator.all.map operator ++
      windowedStatistics.map (fun w => aggregate ⟨w.1, w.2, .empty limit⟩) ++
      Incremental.all.map incremental ++ Directive.all.map directive
  functions.find? fun f =>
    sameName f.name name ||
      match f with
      | operator op => op.symbol? == some name
      | _ => false

/-- The answer of a function on the operands at the top of a stack, and the stack
that is left in front of any results. -/
def applyTo (f : Function) (s : Stack) : Outcome Answer × Stack :=
  match s.split? f.takes with
  | none => (.error (.stackUnderflow f.name f.takes s.size), s)
  | some (operands, below) => (f.call operands, below)

end Function

end Telemetry
