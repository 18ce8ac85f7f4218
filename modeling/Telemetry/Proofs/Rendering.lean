import Telemetry.Proofs.Depth
import Telemetry.Script

/-!
# Texts of expressions and the account of depths

An expression is written as JavaScript over a stack of texts, with the texts of directives put
aside.  The number of texts on the stack is the declared depth throughout, token by token
(`Script.depth_of_fold`), so an expression cannot be written if and only if validation refuses
it, and the reason is the same (`Script.render_error_iff`).  That every argument a form names is
there needs no lemma: the form of a function is given a vector of as many as it declares.
-/

namespace Telemetry.Script

variable {s : State} {t : Token}

theorem step_of_lt (table : VariableTable) (h : s.stack.length < t.inputs) :
    step table s t = .error (.stackUnderflow t.operatorName t.inputs s.stack.length) := by
  cases t with
  | function f =>
      have hnot : ¬ f.inputs ≤ s.stack.length := Nat.not_le.2 h
      rw [step, dif_neg hnot]
      rfl
  | _ => exact absurd h (Nat.not_lt_zero _)

/-- With texts enough a token is written: it takes as many as it declares, and leaves one text on
the stack or, being a directive, none. -/
theorem step_of_le (table : VariableTable) (h : t.inputs ≤ s.stack.length) :
    ∃ next, step table s t = .ok next ∧
      next.stack.length = s.stack.length - t.inputs + t.outputs := by
  cases t with
  | function f =>
      have hle : f.inputs ≤ s.stack.length := h
      rw [step, dif_pos hle]
      refine ⟨_, rfl, ?_⟩
      show _ = s.stack.length - f.inputs + f.outputs
      split
      · next hnone => rw [hnone, List.length_drop, Nat.add_zero]
      · next hsome =>
          have hone : f.outputs = 1 := by cases f <;> first | rfl | exact absurd rfl hsome
          rw [hone, List.length_cons, List.length_drop]
  | _ => exact ⟨_, rfl, rfl⟩

/-- **The texts on the stack are as many as the declared depth**, and where one is missing the
account of depths fails in the same words. -/
theorem depth_of_fold (table : VariableTable) (tokens : List Token) (s : State) :
    (tokens.foldlM (step table) s).map (fun s => s.stack.length) =
      Expression.depth tokens s.stack.length := by
  induction tokens generalizing s with
  | nil => rfl
  | cons t ts ih =>
      rw [List.foldlM_cons, Expression.depth]
      rcases Nat.lt_or_ge s.stack.length t.inputs with hlt | hle
      · rw [if_pos hlt, step_of_lt table hlt]
        rfl
      · obtain ⟨next, hstep, hlength⟩ := step_of_le table hle
        rw [if_neg (Nat.not_lt.2 hle), hstep, ← hlength, ← ih]
        rfl

/-- What is left on the stack at the end is the text of the expression, if it is one text. -/
theorem render_of_fold {e : Expression} (h : e.tokens.foldlM (step e.table) {} = .ok s) :
    (∃ text, s.stack.length = 1 ∧ render e = .ok text) ∨
      (s.stack.length ≠ 1 ∧ render e = .error (.unbalancedStack s.stack.length)) := by
  rw [render, h]
  obtain ⟨stack, directives⟩ := s
  match stack with
  | [body] =>
      refine Or.inl ?_
      cases hnone : directives.isEmpty with
      | true => exact ⟨body, rfl, if_pos hnone⟩
      | false => exact ⟨_, rfl, if_neg (Bool.eq_false_iff.1 hnone)⟩
  | [] => exact Or.inr ⟨Nat.zero_ne_one, rfl⟩
  | first :: second :: rest =>
      refine Or.inr ⟨?_, rfl⟩
      show rest.length + 1 + 1 ≠ 1
      omega

/-- Writing an expression succeeds and fails as validating it does. -/
theorem render_eq (e : Expression) : (render e).map (fun _ => ()) = e.validate := by
  have hdepth := depth_of_fold e.table e.tokens {}
  cases hfold : e.tokens.foldlM (step e.table) {} with
  | error fault =>
      rw [hfold] at hdepth
      rw [Expression.validate_of_depth_error hdepth.symm, render, hfold]
      rfl
  | ok s =>
      rw [hfold] at hdepth
      rw [Expression.validate_of_depth hdepth.symm]
      rcases render_of_fold hfold with ⟨text, hone, hrender⟩ | ⟨hother, hrender⟩
      · rw [hrender, if_pos hone]
        rfl
      · rw [hrender, if_neg hother]
        rfl

/-- **An expression cannot be written if and only if validation refuses it**, and the fault is
the same: the function that lacks operands with how many it takes and how many there are, or the
number of values that are left. -/
theorem render_error_iff (e : Expression) :
    (∀ fault, render e = .error fault ↔ e.validate = .error fault) ∧
      ∀ fault, render e = .error fault → fault.IsStackFault := by
  have hsame : ∀ fault, render e = .error fault ↔ e.validate = .error fault := by
    intro fault
    rw [← render_eq]
    constructor
    · intro h
      rw [h]
      rfl
    · exact map_eq_error
  exact ⟨hsame, fun fault h => Expression.stackFault_of_validate ((hsame fault).1 h)⟩

/-- A sum that lacks an operand behind a directive, which leaves nothing that it could take. -/
def loneSum : Expression :=
  { tokens := [.function (.directive .startAtNewest), .constant (.constant (.int 1)),
      .function (.operator (.arithmetic .add))] }

theorem render_loneSum :
    loneSum.validate = .error (.stackUnderflow "Addition" 2 1) ∧
      render loneSum = .error (.stackUnderflow "Addition" 2 1) := by
  have hrefused : loneSum.validate = .error (.stackUnderflow "Addition" 2 1) := rfl
  exact ⟨hrefused, ((render_error_iff loneSum).1 _).2 hrefused⟩

end Telemetry.Script
