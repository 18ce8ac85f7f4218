import Telemetry.Proofs.Passes

/-!
# Depths of the stack

Validation runs through the tokens with a number in place of the stack, by what the tokens
declare; evaluation moves operands.  Both keep the same account: wherever a walk ends, the
declared depth is the size of the stack there (`depth_of_walk_ok`), and where a walk lacks
operands, so does the account, with the same function and numbers (`depth_of_walk_underflow`).
Linking and evaluating leave what tokens declare as it is, so that it does not matter when
validation is asked for (`validate_of_evaluate`).
-/

namespace Telemetry

/-- What a token declares: its name in faults, the operands taken and the values left. -/
def Token.effect (t : Token) : String × Nat × Nat := (t.operatorName, t.inputs, t.outputs)

/-- What a token declares does not depend on what it remembers. -/
@[simp] theorem Token.effect_bare (t : Token) : t.bare.effect = t.effect := by
  simp only [effect, operatorName_bare, inputs_bare, outputs_bare]

theorem map_effect_of_map_bare {ts us : List Token}
    (h : ts.map Token.bare = us.map Token.bare) : ts.map Token.effect = us.map Token.effect := by
  have heffect : Token.effect = Token.effect ∘ Token.bare := by
    funext t
    exact t.effect_bare.symm
  rw [heffect, ← List.map_map, h, List.map_map]

namespace Link

theorem effect_rename (pair : Nat × Nat) (t : Token) : (rename pair t).effect = t.effect := by
  cases t <;> rfl

theorem effect_wrap (config : Configuration) (ids : List Nat) (t : Token) :
    (wrap config ids t).effect = t.effect := by
  cases t with
  | reference id =>
      rw [wrap]
      split <;> rfl
  | _ => rfl

theorem map_effect_applyAliases (pairs : List (Nat × Nat)) (tokens : List Token) :
    (applyAliases pairs tokens).map Token.effect = tokens.map Token.effect := by
  induction pairs generalizing tokens with
  | nil => rfl
  | cons pair pairs ih =>
      show (applyAliases pairs (tokens.map (rename pair))).map Token.effect = _
      rw [ih, List.map_map]
      exact List.map_congr_left fun t _ => effect_rename pair t

/-- Linking, whether it succeeds or not, leaves what tokens declare as it is. -/
theorem map_effect_link (config : Configuration) (table : VariableTable) (tokens : List Token) :
    (link config table tokens).tokens.map Token.effect = tokens.map Token.effect := by
  rw [link]
  split
  · rfl
  · next pairs _ =>
      dsimp only
      split
      · exact map_effect_applyAliases pairs tokens
      · next ids _ =>
          rw [← map_effect_applyAliases pairs tokens]
          rw [List.map_map]
          exact List.map_congr_left fun t _ => effect_wrap config ids t

end Link

namespace Expression

/-- The account of depths reads off tokens what they declare, and no more. -/
theorem depth_congr {ts us : List Token} (h : ts.map Token.effect = us.map Token.effect)
    (d : Nat) : depth ts d = depth us d := by
  induction ts generalizing us d with
  | nil =>
      obtain rfl := List.map_eq_nil_iff.1 h.symm
      rfl
  | cons t ts ih =>
      obtain ⟨u, us, rfl, hu, hus⟩ := List.map_eq_cons_iff.1 h.symm
      obtain ⟨hname, hin, hout⟩ : u.operatorName = t.operatorName ∧ u.inputs = t.inputs ∧
          u.outputs = t.outputs := by
        simpa only [Token.effect, Prod.mk.injEq] using hu
      rw [depth, depth, hname, hin, hout, ih hus.symm]

theorem depth_append {front back : List Token} {d below : Nat}
    (h : depth front d = .ok below) : depth (front ++ back) d = depth back below := by
  induction front generalizing d with
  | nil =>
      cases h
      rfl
  | cons t ts ih =>
      rw [depth] at h
      split at h
      · exact nomatch h
      · next hle =>
          rw [List.cons_append, depth, if_neg hle]
          exact ih h

section Account

variable {table : VariableTable} {key : Option Int64}

/-- **Where a walk ends well, the declared depth is the size of the stack.** -/
theorem depth_of_walk_ok {tokens : List Token} {stack final : Stack}
    (h : (walk table key tokens stack).outcome = .ok final) :
    depth tokens stack.size = .ok final.size := by
  induction tokens generalizing stack with
  | nil =>
      cases h
      rfl
  | cons t ts ih =>
      cases hstep : t.step table key stack with
      | error fault =>
          rw [walk_cons_error hstep] at h
          exact nomatch h
      | ok step =>
          rw [walk_cons_ok hstep] at h
          obtain ⟨hle, hsize, -⟩ := Token.step_ok hstep
          rw [depth, if_neg (Nat.not_lt.2 hle), ← hsize]
          exact ih h

/-- **Where a walk lacks operands, the account of depths fails in the same words.** -/
theorem depth_of_walk_underflow {tokens : List Token} {stack : Stack} {function : String}
    {required available : Nat}
    (h : (walk table key tokens stack).outcome =
      .error (.stackUnderflow function required available)) :
    depth tokens stack.size = .error (.stackUnderflow function required available) := by
  obtain ⟨front, t, back, below, rfl, hfront, hstep, -⟩ := walk_fault h
  rw [depth_append (depth_of_walk_ok hfront), depth]
  cases Token.step_fault hstep with
  | underflow f hlt => exact if_pos hlt
  | mismatch f hle hf =>
      obtain ⟨_, _, _, hmismatch⟩ := hf
      exact nomatch hmismatch

/-- A walk never fails as if it were at the end of a pass. -/
theorem walk_not_unbalanced {tokens : List Token} {stack : Stack} {n : Nat} :
    (walk table key tokens stack).outcome ≠ .error (.unbalancedStack n) := by
  intro h
  obtain ⟨front, t, back, below, -, -, hstep, -⟩ := walk_fault h
  cases Token.step_fault hstep with
  | mismatch f hle hf =>
      obtain ⟨_, _, _, hmismatch⟩ := hf
      exact nomatch hmismatch

end Account

theorem validate_of_depth {e : Expression} {d : Nat} (h : depth e.tokens 0 = .ok d) :
    e.validate = if d = 1 then .ok () else .error (.unbalancedStack d) := by
  rw [validate, h]
  rfl

theorem validate_of_depth_error {e : Expression} {fault : Fault}
    (h : depth e.tokens 0 = .error fault) : e.validate = .error fault := by
  rw [validate, h]
  rfl

/-- Expressions whose tokens declare the same are accepted or refused alike. -/
theorem validate_congr {e f : Expression}
    (h : e.tokens.map Token.effect = f.tokens.map Token.effect) : e.validate = f.validate := by
  rw [validate, validate, depth_congr h]

/-- Linking changes nothing about validation. -/
theorem validate_link (e : Expression) : e.link.1.validate = e.validate := by
  refine validate_congr ?_
  rw [link]
  split
  · rfl
  · dsimp only
    split <;> exact Link.map_effect_link _ _ _

end Expression

/-- A stack gives its result if and only if it holds one operand. -/
theorem Stack.result_eq (s : Stack) :
    (∃ x, s.size = 1 ∧ s.result = .ok x) ∨
      (s.size ≠ 1 ∧ s.result = .error (.unbalancedStack s.size)) := by
  obtain ⟨xs⟩ := s
  match xs with
  | [x] => exact Or.inl ⟨x, rfl, rfl⟩
  | [] => exact Or.inr ⟨Nat.zero_ne_one, rfl⟩
  | x :: y :: rest =>
      refine Or.inr ⟨?_, rfl⟩
      show rest.length + 1 + 1 ≠ 1
      omega

/-- Whether a fault is about the number of operands on the stack. -/
inductive Fault.IsStackFault : Fault → Prop where
  | underflow (function : String) (required available : Nat) :
      IsStackFault (.stackUnderflow function required available)
  | unbalanced (remaining : Nat) : IsStackFault (.unbalancedStack remaining)

namespace Expression

theorem stackFault_of_depth {tokens : List Token} {d : Nat} {fault : Fault}
    (h : depth tokens d = .error fault) : fault.IsStackFault := by
  induction tokens generalizing d with
  | nil => exact nomatch h
  | cons t ts ih =>
      rw [depth] at h
      split at h
      · cases h
        exact .underflow _ _ _
      · exact ih h

/-- Validation refuses an expression for the number of operands only. -/
theorem stackFault_of_validate {e : Expression} {fault : Fault} (h : e.validate = .error fault) :
    fault.IsStackFault := by
  cases hdepth : depth e.tokens 0 with
  | error other =>
      rw [validate_of_depth_error hdepth] at h
      cases h
      exact stackFault_of_depth hdepth
  | ok d =>
      rw [validate_of_depth hdepth] at h
      split at h
      · cases h
      · cases h
        exact .unbalanced d

theorem depth_fed (e : Expression) (d : Nat) : depth e.fed d = depth e.tokens d :=
  depth_congr (map_effect_of_map_bare e.map_bare_fed) d

/-- A linked expression whose pass gives a value is balanced. -/
theorem validate_of_ok {e : Expression} (hlinked : e.linked = true) {r : Timed}
    (h : e.evaluate.2.2 = .ok r) : e.validate = .ok () := by
  rw [outcome_of_linked hlinked] at h
  obtain ⟨final, hwalk, hresult⟩ := bind_eq_ok h
  have hdepth : depth e.tokens 0 = .ok final.size := by
    rw [← depth_fed]
    exact depth_of_walk_ok hwalk
  rcases final.result_eq with ⟨x, hsize, -⟩ | ⟨-, herror⟩
  · rw [validate_of_depth hdepth, if_pos hsize]
  · rw [herror] at hresult
    exact nomatch hresult

/-- A linked expression whose pass fails for the number of operands is refused in the same
words. -/
theorem validate_of_error {e : Expression} (hlinked : e.linked = true) {fault : Fault}
    (hfault : fault.IsStackFault) (h : e.evaluate.2.2 = .error fault) :
    e.validate = .error fault := by
  rw [outcome_of_linked hlinked] at h
  cases hwalk : e.walked.outcome with
  | error other =>
      rw [hwalk] at h
      cases h
      cases hfault with
      | underflow function required available =>
          refine validate_of_depth_error ?_
          rw [← depth_fed]
          exact depth_of_walk_underflow hwalk
      | unbalanced remaining => exact absurd hwalk walk_not_unbalanced
  | ok final =>
      rw [hwalk] at h
      have hdepth : depth e.tokens 0 = .ok final.size := by
        rw [← depth_fed]
        exact depth_of_walk_ok hwalk
      rcases final.result_eq with ⟨x, -, hok⟩ | ⟨hsize, herror⟩
      · exact nomatch (hok.symm.trans h)
      · have hfault : fault = .unbalancedStack final.size :=
          Except.error.inj (h.symm.trans herror)
        rw [validate_of_depth hdepth, if_neg hsize, hfault]

/-- **Evaluation and validation agree about the stack.**  Let `e` be an expression that links
to the tokens that `start` links to, with any variables and any memory of these tokens: `start`
itself, or what it has become after linking and any passes.  If a pass of `e` gives a value,
both are accepted; if it lacks operands or leaves another number of values than one, both are
refused with that very fault. -/
theorem validate_of_evaluate {start e : Expression} (hlink : e.link.2 = .ok ())
    (hstate : e.link.1.tokens.map Token.bare = start.link.1.tokens.map Token.bare) :
    (∀ r, e.evaluate.2.2 = .ok r → start.validate = .ok () ∧ e.validate = .ok ()) ∧
      (∀ fault, fault.IsStackFault → e.evaluate.2.2 = .error fault →
        start.validate = .error fault ∧ e.validate = .error fault) := by
  have hstart : start.validate = e.link.1.validate := by
    rw [← validate_link start]
    exact validate_congr (map_effect_of_map_bare hstate.symm)
  rw [hstart, ← validate_link e, evaluate_link hlink]
  constructor
  · intro r h
    have hvalid := validate_of_ok (linked_link hlink) h
    exact ⟨hvalid, hvalid⟩
  · intro fault hfault h
    have hrefused := validate_of_error (linked_link hlink) hfault h
    exact ⟨hrefused, hrefused⟩

/-- The running total of one and nothing to add it to. -/
def loneTotal : Expression :=
  { tokens := [.constant (.constant (.int 1)), .constant (.constant (.int 5)),
      .function (.aggregate ⟨.count, .total, .empty 10⟩), .function (.operator (.arithmetic .add))] }

/-- After a pass in which the total has taken a sample, the sum still lacks an operand, and
both the expression as written and as it is then are refused for it. -/
theorem validate_loneTotal :
    loneTotal.evaluate.1.link.2 = .ok () ∧
      loneTotal.evaluate.1.evaluate.2.2 = .error (.stackUnderflow "Addition" 2 1) ∧
      loneTotal.validate = .error (.stackUnderflow "Addition" 2 1) ∧
      loneTotal.evaluate.1.validate = .error (.stackUnderflow "Addition" 2 1) := by
  have hlink : loneTotal.evaluate.1.link.2 = .ok () := rfl
  have hpass : loneTotal.evaluate.1.evaluate.2.2 = .error (.stackUnderflow "Addition" 2 1) := rfl
  exact ⟨hlink, hpass, (validate_of_evaluate hlink rfl).2 _ (.underflow _ _ _) hpass⟩

end Expression

end Telemetry
