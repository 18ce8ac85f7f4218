/-!
# Faults

The reasons why an expression cannot be built, linked or evaluated. A fault ends
the pass in which it arises and nothing else. The wording of each reason is in
`Fault.message`.
-/

namespace Telemetry

/-- Why an expression is refused or a pass fails. -/
inductive Fault where
  /-- A function needs more operands than there are. -/
  | stackUnderflow (function : String) (required available : Nat)
  /-- An operand is not of a kind or value that the function can use. -/
  | typeMismatch (function expected found : String)
  /-- The synchronized variables have no common time yet. -/
  | synchronizationUnavailable
  /-- A pass ends with no value or with several. -/
  | unbalancedStack (remaining : Nat)
  /-- The operands of a linking function do not name what they should. -/
  | invalidLink (function reason : String)
  | unknownVariable (name : String)
  /-- An item of the source cannot be read. -/
  | parse (item reason : String)
  /-- The configuration is out of range. -/
  | config (reason : String)
  deriving DecidableEq

/-- An answer or a fault. -/
abbrev Outcome := Except Fault

/-- The wording of a fault. -/
def Fault.message : Fault → String
  | .stackUnderflow function required available =>
    "Stack underflow in " ++ function ++ ": requires " ++ Nat.repr required ++
      " operand(s), " ++ Nat.repr available ++ " available"
  | .typeMismatch function expected found =>
    "Type mismatch in " ++ function ++ ": expected " ++ expected ++ ", found " ++ found
  | .synchronizationUnavailable => "No synchronized value available"
  | .unbalancedStack remaining =>
    "Unbalanced expression: " ++ Nat.repr remaining ++ " value(s) left on the stack"
  | .invalidLink function reason => "Invalid link for " ++ function ++ ": " ++ reason
  | .unknownVariable name => "Variable not found: " ++ name
  | .parse item reason => "Parse error at '" ++ item ++ "': " ++ reason
  | .config reason => "Configuration error: " ++ reason

/-- Whether the host may go on with the next record as if nothing had happened. -/
def Fault.isRecoverable : Fault → Bool
  | .synchronizationUnavailable => true
  | _ => false

end Telemetry
