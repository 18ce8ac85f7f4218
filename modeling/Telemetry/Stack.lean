import Telemetry.Value

/-!
# Operand stacks

The operands of a pass, the newest on top. `split?` takes operands off the top and
gives them oldest first; a pass ends well when one operand is left.
-/

namespace Telemetry

/-- Operands, newest first. -/
structure Stack where
  operands : List Timed := []

namespace Stack

/-- The number of operands. -/
def size (s : Stack) : Nat := s.operands.length

/-- Whether there are no operands. -/
def isEmpty (s : Stack) : Bool := s.operands.isEmpty

/-- The stack with one operand more on top. -/
def push (s : Stack) (x : Timed) : Stack := ⟨x :: s.operands⟩

/-- The operands, oldest first. -/
def toList (s : Stack) : List Timed := s.operands.reverse

/-- A stack of operands given oldest first. -/
def ofList (xs : List Timed) : Stack := ⟨xs.reverse⟩

/-- The top `n` operands, oldest first, and the stack below them. -/
def split? (s : Stack) (n : Nat) : Option (List Timed × Stack) :=
  if n ≤ s.size then some ((s.operands.take n).reverse, ⟨s.operands.drop n⟩) else none

/-- The top `n` operands for a function, oldest first, and the stack below them. -/
def take (s : Stack) (function : String) (n : Nat) : Outcome (List Timed × Stack) :=
  match s.split? n with
  | some split => .ok split
  | none => .error (.stackUnderflow function n s.size)

/-- The top operand for a function, and the stack below it. -/
def pop (s : Stack) (function : String) : Outcome (Timed × Stack) :=
  match s.operands with
  | x :: rest => .ok (x, ⟨rest⟩)
  | [] => .error (.stackUnderflow function 1 0)

/-- The operands pushed in order. -/
def pushAll (s : Stack) (xs : List Timed) : Stack := xs.foldl push s

/-- The one operand that is left at the end of a pass. -/
def result (s : Stack) : Outcome Timed :=
  match s.operands with
  | [x] => .ok x
  | xs => .error (.unbalancedStack xs.length)

end Stack

end Telemetry
