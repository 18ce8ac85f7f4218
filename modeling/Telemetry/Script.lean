import Telemetry.Expression
import Telemetry.Text.Escape

/-!
# Expressions as JavaScript

The infix form of an expression for a page that computes it again. Variables are
read from an object `v`; functions that the language does not have are called on
an object `Expr`. Directives come first, joined to the result by commas. The
tokens are walked like in a pass, over a stack of texts. A function is written on a
vector of as many arguments as it declares to take, so that every argument that its
form names is there.
-/

namespace Telemetry.Script

/-- Texts with a comma between them. -/
def commas (xs : List String) : String := String.intercalate ", " xs

/-- A text between quotes. -/
def quoted (s : String) : String := String.ofList (Text.quote s.toList)

/-- A constant. Dates count milliseconds. -/
def constant : Value → String
  | .text s => quoted s
  | .date t => "new Date(" ++ String.ofList (Number.integerText (t.toInt / 1000000)) ++ ")"
  | v => v.toText

/-- A variable. -/
def reference (table : VariableTable) (id : Nat) : String :=
  "v[" ++ quoted ((table.get? id).elim "" Variable.name) ++ "]"

/-- A call of a function of an object. -/
def invoke (object name : String) (args : Vector String n) : String :=
  object ++ "." ++ name ++ "(" ++ commas args.toList ++ ")"

/-- One argument behind a sign. -/
def behind (sign : String) (args : Vector String 1) : String := "(" ++ sign ++ args[0] ++ ")"

/-- Two arguments with a symbol between them. -/
def between (symbol : String) (args : Vector String 2) : String :=
  "(" ++ args[0] ++ " " ++ symbol ++ " " ++ args[1] ++ ")"

/-- An operator of arithmetic on arguments. The ones that treat zero or kinds in a way of
their own are called on `Expr`. -/
def arithmetic : (op : Arithmetic) → Vector String op.arity → String
  | .add, args => between "+" args
  | .subtract, args => between "-" args
  | .multiply, args => between "*" args
  | .power, args => invoke "Math" "pow" args
  | .negate, args => behind "-" args
  | .absolute, args => invoke "Math" "abs" args
  | .sign, args => invoke "Math" "sign" args
  | .floor, args => invoke "Math" "floor" args
  | .truncate, args => invoke "Math" "trunc" args
  | .least, args => invoke "Math" "min" args
  | .greatest, args => invoke "Math" "max" args
  | op, args => invoke "Expr" op.name args

/-- The symbol of a comparison, which differs for equality. -/
def comparisonSymbol : Comparison → String
  | .equal => "=="
  | .notEqual => "!="
  | op => op.symbol

/-- A comparison, the operand pushed later on the left. -/
def comparison (op : Comparison) (args : Vector String 2) : String :=
  "(" ++ args[1] ++ " " ++ comparisonSymbol op ++ " " ++ args[0] ++ " ? -1 : 0)"

/-- A bit operator on arguments. -/
def bitwise : (op : Bitwise) → Vector String op.arity → String
  | .and, args => between "&" args
  | .or, args => between "|" args
  | .xor, args => between "^" args
  | .not, args => behind "~" args

/-- The name of a function of analysis. -/
def analysisName : Analysis → String
  | .sine => "sin"
  | .cosine => "cos"
  | .tangent => "tan"
  | .arcTangent => "atan"
  | .squareRoot => "sqrt"
  | .naturalLog => "log"
  | .decimalLog => "log10"
  | .exponential => "exp"
  | .power => "pow"
  | .angle => "atan2"

/-- Two arguments joined as texts. -/
def joined (args : Vector String 2) : String :=
  "(String(" ++ args[0] ++ ") + String(" ++ args[1] ++ "))"

/-- One of two arguments, by a condition. -/
def chosen (args : Vector String 3) : String :=
  "(" ++ args[0] ++ " ? " ++ args[1] ++ " : " ++ args[2] ++ ")"

/-- An operator on arguments. -/
def operator : (op : Operator) → Vector String op.arity → String
  | .arithmetic op, args => arithmetic op args
  | .comparison op, args => comparison op args
  | .bitwise op, args => bitwise op args
  | .analysis op, args => invoke "Math" (analysisName op) args
  | .textual .concat, args => joined args
  | .conversion .choose, args => chosen args
  | op, args => invoke "Expr" op.name args

/-- A function on arguments; the two that linking uses pass their first operand
through. -/
def function : (f : Function) → Vector String f.inputs → String
  | .operator op, args => operator op args
  | .secondName, (args : Vector String 2) => args[0]
  | .valueSynch, (args : Vector String 1) => args[0]
  | f, args => invoke "Expr" f.name args

/-- Texts on the stack, newest first, and directives in order. -/
structure State where
  stack : List String := []
  directives : List String := []

/-- The state after one token. -/
def step (table : VariableTable) (s : State) : Token → Outcome State
  | .constant x => .ok { s with stack := constant x.value :: s.stack }
  | .reference id => .ok { s with stack := reference table id :: s.stack }
  | .synch y =>
    .ok { s with stack := invoke "Expr" "Synch" #v[reference table y.source] :: s.stack }
  | .function f =>
    if h : f.inputs ≤ s.stack.length then
      let args : Vector String f.inputs :=
        ⟨(s.stack.take f.inputs).reverse.toArray, by simp [Nat.min_eq_left h]⟩
      let below := s.stack.drop f.inputs
      let text := function f args
      .ok
        (if f.outputs = 0 then ⟨below, s.directives ++ [text]⟩ else ⟨text :: below, s.directives⟩)
    else .error (.stackUnderflow f.name f.inputs s.stack.length)

/-- The text of a whole expression. -/
def render (e : Expression) : Outcome String := do
  let s ← e.tokens.foldlM (step e.table) {}
  match s.stack with
  | [body] =>
    if s.directives.isEmpty then return body
    return "(" ++ commas (s.directives ++ [body]) ++ ")"
  | texts => throw (.unbalancedStack texts.length)

end Telemetry.Script
