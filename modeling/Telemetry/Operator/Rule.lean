import Telemetry.Value

/-!
# Rules of operators

A stateless operator is a rule over one, two or three operands, oldest first, and
takes as many off the stack as its rule has. What an operator declares stands in
a table of its family instead, which validation reads; beside each table it is
proved that the rules agree with it. A result belongs to the latest instant among
the operands.
-/

namespace Telemetry

/-- How an operator computes its result. -/
inductive Rule where
  | one (f : Value → Outcome Value)
  | two (f : Value → Value → Outcome Value)
  | three (f : Value → Value → Value → Outcome Value)
  /-- A result made from the time of the operand. -/
  | ofTime (f : Instant → Value)

/-- The number of operands that a rule takes. -/
def Rule.takes : Rule → Nat
  | one _ => 1
  | two _ => 2
  | three _ => 3
  | ofTime _ => 1

/-- The result on operands given oldest first. -/
def Rule.apply (function : String) (rule : Rule) (operands : List Timed) : Outcome Timed :=
  match rule, operands with
  | one f, [a] => (f a.value).map fun v => ⟨v, newest operands⟩
  | two f, [a, b] => (f a.value b.value).map fun v => ⟨v, newest operands⟩
  | three f, [a, b, c] => (f a.value b.value c.value).map fun v => ⟨v, newest operands⟩
  | ofTime f, [a] => .ok ⟨f a.time, a.time⟩
  | rule, operands => .error (.stackUnderflow function rule.takes operands.length)

end Telemetry
