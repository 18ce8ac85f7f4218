import Telemetry.Proofs.Depth

/-!
# Locality of walks

A walk over tokens whose declared depth never falls below zero does not look at the operands
that lie on the stack when it begins.  Over any such operands it fails where it fails over none,
with the same fault, or puts the same values on top of them; what the tokens remember afterwards
and the commands for the host are the same as well (`walk_segment`).  One step of a token that
finds its operands within the top of the stack is enough for that (`Token.step_above`).
-/

namespace Telemetry

namespace Stack

/-- The operands of one stack on top of those of another. -/
def above (top base : Stack) : Stack := ⟨top.operands ++ base.operands⟩

@[simp] theorem size_above (top base : Stack) : (top.above base).size = top.size + base.size :=
  List.length_append

theorem push_above (top base : Stack) (x : Timed) :
    (top.above base).push x = (top.push x).above base := rfl

theorem pushAll_above (top base : Stack) (xs : List Timed) :
    (top.above base).pushAll xs = (top.pushAll xs).above base := by
  induction xs generalizing top with
  | nil => rfl
  | cons x xs ih =>
      show ((top.above base).push x).pushAll xs = ((top.push x).pushAll xs).above base
      rw [push_above, ih]

/-- A stack on top of another, oldest operand first. -/
theorem above_eq_ofList (top base : Stack) :
    top.above base = ofList (base.toList ++ top.toList) := by
  simp only [above, ofList, toList, List.reverse_append, List.reverse_reverse]

theorem eq_ofList (s : Stack) : s = ofList s.toList := by
  simp only [ofList, toList, List.reverse_reverse]

end Stack

/-- A function that finds its operands within the top of a stack takes them from there. -/
theorem Function.applyTo_above {f : Function} {top : Stack} (h : f.inputs ≤ top.size)
    (base : Stack) :
    f.applyTo (top.above base) = ((f.applyTo top).1, (f.applyTo top).2.above base) := by
  have hle : f.inputs ≤ (top.above base).size := by
    rw [Stack.size_above]
    omega
  rw [applyTo_of_le hle, applyTo_of_le h]
  simp only [Stack.above, List.take_append_of_le_length h, List.drop_append_of_le_length h]

/-- **A step whose operands lie within the top of a stack** is the step on that top. -/
theorem Token.step_above (table : VariableTable) (key : Option Int64) {t : Token} {top : Stack}
    (h : t.inputs ≤ top.size) (base : Stack) :
    t.step table key (top.above base) =
      (t.step table key top).map fun step => { step with stack := step.stack.above base } := by
  cases t with
  | constant x => rfl
  | reference id =>
      simp only [Token.step]
      cases table.get? id <;> rfl
  | synch s =>
      cases key with
      | none => rfl
      | some k =>
          simp only [Token.step]
          cases s.report k <;> rfl
  | function f =>
      simp only [Token.step, Function.applyTo_above h]
      cases hanswer : (f.applyTo top).1 with
      | error fault => rfl
      | ok a =>
          simp only [Except.map]
          rw [Stack.pushAll_above]

/-- A walk with other operands below its own. -/
def Walk.above (w : Walk) (base : Stack) : Walk :=
  { w with outcome := w.outcome.map fun top => top.above base }

namespace Expression

/-- A sequence whose account of depths does not fail has the operands of its first token, and
the account of the others does not fail either. -/
theorem depth_cons {t : Token} {ts : List Token} {d n : Nat} (h : depth (t :: ts) d = .ok n) :
    t.inputs ≤ d ∧ depth ts (d - t.inputs + t.outputs) = .ok n := by
  rw [depth] at h
  split at h
  · cases h
  · next hle => exact ⟨Nat.not_lt.1 hle, h⟩

end Expression

/-- A walk over tokens whose account of depths does not fail leaves what lies below alone. -/
theorem walk_above (table : VariableTable) (key : Option Int64) {tokens : List Token}
    (top : Stack) {n : Nat} (h : Expression.depth tokens top.size = .ok n) (base : Stack) :
    walk table key tokens (top.above base) = (walk table key tokens top).above base := by
  induction tokens generalizing top with
  | nil => rfl
  | cons t ts ih =>
      obtain ⟨hin, hrest⟩ := Expression.depth_cons h
      have habove := Token.step_above table key hin base
      cases hstep : t.step table key top with
      | error fault =>
          rw [hstep] at habove
          rw [walk_cons_error hstep, walk_cons_error habove]
          rfl
      | ok step =>
          rw [hstep] at habove
          obtain ⟨-, hsize, -⟩ := Token.step_ok hstep
          rw [← hsize] at hrest
          rw [walk_cons_ok hstep, walk_cons_ok habove]
          simp only [ih step.stack hrest, Walk.above]

/-- **A segment of tokens is walked on any stack as on the empty one.**  Let the account of
depths of the segment, begun at zero, not fail and end at `n`.  On top of any operands the
segment reaches as many tokens as on none and leaves the same memory in them, so that the same
samples are forgotten afterwards, and it gives the host the same commands.  Either it fails on
both with the same fault, or it leaves the same `n` values, the operands below them untouched. -/
theorem walk_segment {tokens : List Token} {n : Nat} (h : Expression.depth tokens 0 = .ok n)
    (table : VariableTable) (key : Option Int64) (base : Stack) :
    (walk table key tokens base).tokens = (walk table key tokens {}).tokens ∧
      (walk table key tokens base).reached = (walk table key tokens {}).reached ∧
      (walk table key tokens base).commands = (walk table key tokens {}).commands ∧
      ((∃ fault, (walk table key tokens {}).outcome = .error fault ∧
          (walk table key tokens base).outcome = .error fault) ∨
        ∃ values, values.length = n ∧
          (walk table key tokens {}).outcome = .ok (.ofList values) ∧
          (walk table key tokens base).outcome = .ok (.ofList (base.toList ++ values))) := by
  have habove : walk table key tokens base = (walk table key tokens {}).above base :=
    walk_above table key {} h base
  refine ⟨by rw [habove]; rfl, by rw [habove]; rfl, by rw [habove]; rfl, ?_⟩
  cases hempty : (walk table key tokens {}).outcome with
  | error fault =>
      refine Or.inl ⟨fault, rfl, ?_⟩
      rw [habove, Walk.above, hempty]
      rfl
  | ok top =>
      have hsize : top.toList.length = n := by
        have hdepth := Expression.depth_of_walk_ok hempty
        rw [Stack.toList, List.length_reverse]
        exact Except.ok.inj (hdepth.symm.trans h)
      refine Or.inr ⟨top.toList, hsize, by rw [← Stack.eq_ofList], ?_⟩
      rw [habove, Walk.above, hempty, ← Stack.above_eq_ofList]
      rfl

/-- A directive, and the running total of four under a window of two. -/
def totalSegment : List Token :=
  [.function (.directive .startAtNewest), .constant (.constant (.int 4)),
    .constant (.constant (.int 2)), .function (.aggregate ⟨.count, .total, .empty 10⟩)]

/-- The example on top of two operands, which it does not touch. -/
theorem walk_totalSegment :
    Expression.depth totalSegment 0 = .ok 1 ∧
      ∃ total, (walk .empty none totalSegment
          (.ofList [.constant (.int 1), .constant (.text "below")])).outcome =
        .ok (.ofList [.constant (.int 1), .constant (.text "below"), total]) := by
  have hdepth : Expression.depth totalSegment 0 = .ok 1 := rfl
  have hok : (walk .empty none totalSegment {}).outcome.isOk = true := by decide +kernel
  refine ⟨hdepth, ?_⟩
  obtain ⟨-, -, -, ⟨fault, hfault, -⟩ | ⟨values, hone, -, hvalues⟩⟩ :=
    walk_segment hdepth .empty none (.ofList [.constant (.int 1), .constant (.text "below")])
  · rw [hfault] at hok
    exact nomatch hok
  · obtain ⟨total, rfl⟩ := List.length_eq_one_iff.1 hone
    exact ⟨total, hvalues⟩

end Telemetry
