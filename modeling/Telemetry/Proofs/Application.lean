import Telemetry.Proofs.Walk

/-!
# Operators on operands

An operator takes the operands that were pushed last and leaves one result in their place
(`Operator.walk_pushAll`).  What it makes of operands with given values, at whatever times and on
whatever stack, is the relation `Operator.Gives`; `Operator.gives_iff` reads it off the rule of the
operator (`Rule.onValues`).
-/

namespace Telemetry

/-! ### Operands on a stack -/

theorem Stack.operands_pushAll (s : Stack) (xs : List Timed) :
    (s.pushAll xs).operands = xs.reverse ++ s.operands := by
  induction xs generalizing s with
  | nil => rfl
  | cons x xs ih =>
      show ((s.push x).pushAll xs).operands = _
      rw [ih (s.push x), List.reverse_cons, List.append_assoc]
      rfl

/-- What has been pushed comes off again, oldest first. -/
theorem Stack.split?_pushAll (s : Stack) (xs : List Timed) :
    (s.pushAll xs).split? xs.length = some (xs, s) := by
  have hsome : xs.length ≤ (s.pushAll xs).size := by
    rw [size_pushAll]
    exact Nat.le_add_left _ _
  have hlength : xs.length = xs.reverse.length := List.length_reverse.symm
  rw [split?, if_pos hsome, operands_pushAll, hlength, List.take_left, List.drop_left,
    List.reverse_reverse]

/-- An operator is given the operands that were pushed last. -/
theorem Operator.applyTo_pushAll (op : Operator) {operands : List Timed}
    (h : operands.length = op.rule.takes) (stack : Stack) :
    (Function.operator op).applyTo (stack.pushAll operands) =
      ((Function.operator op).call operands, stack) := by
  have hsplit := stack.split?_pushAll operands
  rw [h] at hsplit
  rw [Function.applyTo, Function.takes, hsplit]

/-- **An operator leaves one result in the place of its operands**, or fails as its rule does. -/
theorem Operator.step_pushAll (op : Operator) {operands : List Timed}
    (h : operands.length = op.rule.takes) (table : VariableTable) (key : Option Int64)
    (stack : Stack) :
    Token.step table key (.function (.operator op)) (stack.pushAll operands) =
      (op.rule.apply op.name operands).map fun r =>
        ⟨.function (.operator op), stack.push r, []⟩ := by
  rw [Token.step, op.applyTo_pushAll h, Function.call]
  cases op.rule.apply op.name operands <;> rfl

/-- An operator of one operand takes the top of the stack and leaves its result there, at the same
time. -/
theorem Operator.step_of_one (op : Operator) {f : Value → Outcome Value} (hrule : op.rule = .one f)
    {v w : Value} (hf : f v = .ok w) (table : VariableTable) (key : Option Int64) (stack : Stack)
    (time : Instant) :
    Token.step table key (.function (.operator op)) (stack.push ⟨v, time⟩) =
      .ok ⟨.function (.operator op), stack.push ⟨w, time⟩, []⟩ := by
  have hone : ([⟨v, time⟩] : List Timed).length = op.rule.takes := by rw [hrule, Rule.takes]; rfl
  have hstep := op.step_pushAll hone table key stack
  rw [hrule, Rule.apply, hf, newest_singleton] at hstep
  exact hstep

/-- Where an operator of one operand fails, its step does. -/
theorem Operator.step_of_one_error (op : Operator) {f : Value → Outcome Value}
    (hrule : op.rule = .one f) {v : Value} {fault : Fault} (hf : f v = .error fault)
    (table : VariableTable) (key : Option Int64) (stack : Stack) (time : Instant) :
    Token.step table key (.function (.operator op)) (stack.push ⟨v, time⟩) = .error fault := by
  have hone : ([⟨v, time⟩] : List Timed).length = op.rule.takes := by rw [hrule, Rule.takes]; rfl
  have hstep := op.step_pushAll hone table key stack
  rw [hrule, Rule.apply, hf] at hstep
  exact hstep

/-- The walk over an operator is its step. -/
theorem Operator.walk_pushAll (op : Operator) {operands : List Timed}
    (h : operands.length = op.rule.takes) (table : VariableTable) (key : Option Int64)
    (stack : Stack) :
    walk table key [.function (.operator op)] (stack.pushAll operands) =
      match op.rule.apply op.name operands with
      | .ok r => ⟨[.function (.operator op)], 1, [], .ok (stack.push r)⟩
      | .error fault => ⟨[.function (.operator op)], 0, [], .error fault⟩ := by
  rw [walk, op.step_pushAll h]
  cases op.rule.apply op.name operands <;> rfl

/-! ### Values -/

/-- What a rule makes of values, if it takes that many and does not look at the time. -/
def Rule.onValues : Rule → List Value → Option (Outcome Value)
  | .one f, [a] => some (f a)
  | .two f, [a, b] => some (f a b)
  | .three f, [a, b, c] => some (f a b c)
  | _, _ => none

/-- A rule looks at the values of its operands and hands on the latest of their times. -/
theorem Rule.apply_of_onValues {rule : Rule} {operands : List Timed} {r : Outcome Value}
    (h : rule.onValues (operands.map Timed.value) = some r) (function : String) :
    operands.length = rule.takes ∧
      rule.apply function operands = r.map fun v => ⟨v, newest operands⟩ := by
  match rule, operands with
  | .one f, [a] | .two f, [a, b] | .three f, [a, b, c] =>
      cases h
      exact ⟨rfl, rfl⟩

/-- Wherever the operator stands, it leaves `r` in the place of the given operands. -/
def Operator.Leaves (op : Operator) (operands : List Timed) (r : Timed) : Prop :=
  ∀ (table : VariableTable) (key : Option Int64) (stack : Stack),
    walk table key [.function (.operator op)] (stack.pushAll operands) =
      ⟨[.function (.operator op)], 1, [], .ok (stack.push r)⟩

/-- The operator makes the value `v` of operands with the given values, at the latest of their
times. -/
def Operator.Gives (op : Operator) (values : List Value) (v : Value) : Prop :=
  ∀ operands : List Timed, operands.map Timed.value = values →
    op.Leaves operands ⟨v, newest operands⟩

/-- **What an operator makes of values is what its rule makes of them.** -/
theorem Operator.gives_iff {op : Operator} {values : List Value} {r : Outcome Value} {v : Value}
    (h : op.rule.onValues values = some r) : op.Gives values v ↔ r = .ok v := by
  constructor
  · intro hgives
    have hvalues : (values.map Timed.constant).map Timed.value = values := by
      rw [List.map_map]
      exact List.map_id _
    have hwalk := hgives _ hvalues .empty none {}
    rw [← hvalues] at h
    obtain ⟨hlength, happly⟩ := Rule.apply_of_onValues h op.name
    rw [op.walk_pushAll hlength, happly] at hwalk
    cases r with
    | ok w => simpa [Except.map, Stack.push] using hwalk
    | error fault => simp [Except.map] at hwalk
  · rintro rfl operands rfl table key stack
    obtain ⟨hlength, happly⟩ := Rule.apply_of_onValues h op.name
    rw [op.walk_pushAll hlength, happly]
    rfl

end Telemetry
