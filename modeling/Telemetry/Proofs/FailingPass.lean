import Telemetry.Proofs.CommonKey
import Telemetry.Proofs.PassInPlace

/-!
# What a failing pass leaves

A pass fails at the position of a token, or behind the last one when not exactly one value is
left (`Expression.FailsAt`).  What it leaves is what the tokens in front of that position do by
themselves: functions there have taken part in the record, the directives there have had their
commands obeyed, and if the last synchronized variable is among them the samples through the
common key are forgotten.  The token that fails and all behind it have done nothing
(`Expression.effect_of_failure`).
-/

namespace Telemetry

/-! ### The commands of a walk -/

/-- The command that a function makes of its operands.  Only directives make one. -/
def Function.command? (f : Function) (operands : List Timed) : Option Command :=
  match f with
  | .directive d => (d.form.apply d.name operands).toOption
  | _ => none

/-- The command that a token makes of the operands on top of a stack. -/
def Token.command? (t : Token) (stack : Stack) : Option Command :=
  match t with
  | .function f => f.command? (stack.operands.take f.inputs).reverse
  | _ => none

/-- The answer of a function has the command that it makes, and no other. -/
theorem Function.commands_of_call {f : Function} {operands : List Timed} {a : Answer}
    (h : f.call operands = .ok a) : a.commands = (f.command? operands).toList := by
  cases callOk h with
  | operator | aggregate | incremental | secondName | valueSynch => rfl
  | directive d happly =>
      rw [command?, happly]
      rfl

/-- A token that succeeds gives the host the command that it makes, and no other. -/
theorem Token.commands_of_step {table : VariableTable} {key : Option Int64} {t : Token}
    {stack : Stack} {step : Step} (h : t.step table key stack = .ok step) :
    step.commands = (t.command? stack).toList := by
  cases Token.stepOk h with
  | constant | reference | synch => rfl
  | @function f a hle hcall => exact Function.commands_of_call hcall

theorem reached_le (table : VariableTable) (key : Option Int64) (tokens : List Token)
    (stack : Stack) : (walk table key tokens stack).reached ≤ tokens.length := by
  induction tokens generalizing stack with
  | nil => exact Nat.le_refl 0
  | cons t ts ih =>
      cases hstep : t.step table key stack with
      | error fault =>
          rw [walk_cons_error hstep]
          exact Nat.zero_le _
      | ok step =>
          rw [walk_cons_ok hstep]
          exact Nat.succ_le_succ (ih step.stack)

namespace Expression

variable {e : Expression}

/-- The command that the token at a position gives on the operands that the tokens in front of
it leave. -/
def commandAt? (e : Expression) (i : Nat) : Option Command :=
  e.fed[i]?.bind fun t =>
    (walk e.table e.commonKey? (e.fed.take i) {}).outcome.toOption.bind t.command?

/-- The commands of a walk are those of its tokens, in order. -/
theorem commands_take {n : Nat} (h : n ≤ e.walked.reached) :
    (walk e.table e.commonKey? (e.fed.take n) {}).commands =
      (List.range n).filterMap e.commandAt? := by
  induction n with
  | zero => rfl
  | succ n ih =>
      have hlt : n < e.fed.length := Nat.lt_of_lt_of_le h (reached_le _ _ _ _)
      have ht : e.fed[n]? = some e.fed[n] := List.getElem?_eq_getElem hlt
      obtain ⟨below, step, hbelow, hstep⟩ := exists_step_of_lt_reached h ht
      have hcommand : e.commandAt? n = e.fed[n].command? below := by
        rw [commandAt?, ht, hbelow]
        rfl
      rw [walk_take_succ hbelow ht hstep, List.range_succ, List.filterMap_append,
        ← ih (Nat.le_of_lt h), Token.commands_of_step hstep, ← hcommand]
      cases hc : e.commandAt? n <;> simp [hc]

/-! ### Where a pass fails -/

/-- The next pass fails at a position: the tokens in front of it are walked, and the token there
fails on what they leave; or the tokens are all walked and do not leave one value. -/
inductive FailsAt (e : Expression) : Nat → Fault → Prop where
  | token {j : Nat} {t : Token} {below : Stack} {fault : Fault} (ht : e.fed[j]? = some t)
      (front : (walk e.table e.commonKey? (e.fed.take j) {}).outcome = .ok below)
      (step : t.step e.table e.commonKey? below = .error fault) : FailsAt e j fault
  | unbalanced {final : Stack} (walked : e.walked.outcome = .ok final) (size : final.size ≠ 1) :
      FailsAt e e.fed.length (.unbalancedStack final.size)

/-- The walk of a pass that fails at a position is the walk over the tokens in front of it. -/
theorem FailsAt.walked {j : Nat} {fault : Fault} (h : e.FailsAt j fault) :
    e.walked.tokens = (walk e.table e.commonKey? (e.fed.take j) {}).tokens ++ e.fed.drop j ∧
      e.walked.reached = j ∧
      e.walked.commands = (walk e.table e.commonKey? (e.fed.take j) {}).commands ∧
      e.walked.outcome.bind Stack.result = .error fault := by
  cases h with
  | @token j t below fault ht front step =>
      obtain ⟨hj, rfl⟩ := List.getElem?_eq_some_iff.1 ht
      have hwalked : e.walked =
          ⟨(walk e.table e.commonKey? (e.fed.take j) {}).tokens ++ e.fed.drop j, j,
            (walk e.table e.commonKey? (e.fed.take j) {}).commands, .error fault⟩ := by
        have hsplit : e.fed = e.fed.take j ++ e.fed[j] :: e.fed.drop (j + 1) := by
          rw [List.getElem_cons_drop, List.take_append_drop]
        rw [Expression.walked]
        conv => lhs; rw [hsplit]
        rw [walk_append front, walk_cons_error step, List.append_nil, List.length_take,
          Nat.min_eq_left (Nat.le_of_lt hj), List.getElem_cons_drop]
        rfl
      rw [hwalked]
      exact ⟨rfl, rfl, rfl, rfl⟩
  | @unbalanced final walked size =>
      rw [List.take_length, List.drop_length, List.append_nil]
      refine ⟨rfl, reached_of_walk_ok walked, rfl, ?_⟩
      rcases final.result_eq with ⟨x, hone, -⟩ | ⟨-, hresult⟩
      · exact absurd hone size
      · rw [walked]
        exact hresult

/-- A pass fails exactly if it fails at some position. -/
theorem evaluate_error_iff (hlinked : e.linked = true) {fault : Fault} :
    e.evaluate.2.2 = .error fault ↔ ∃ j, e.FailsAt j fault := by
  rw [outcome_of_linked hlinked]
  constructor
  · intro h
    cases hwalk : e.walked.outcome with
    | error other =>
        rw [hwalk] at h
        cases h
        obtain ⟨front, t, back, below, hfed, hfront, hstep, -⟩ := walk_fault hwalk
        have hat : e.fed[front.length]? = some t := by
          rw [hfed, List.getElem?_append_right (Nat.le_refl _), Nat.sub_self]
          rfl
        have htake : e.fed.take front.length = front := by rw [hfed, List.take_left]
        rw [← htake] at hfront
        exact ⟨front.length, .token hat hfront hstep⟩
    | ok final =>
        rw [hwalk] at h
        rcases final.result_eq with ⟨x, -, hresult⟩ | ⟨hsize, hresult⟩
        · exact nomatch hresult.symm.trans h
        · cases hresult.symm.trans h
          exact ⟨_, .unbalanced hwalk hsize⟩
  · rintro ⟨j, h⟩
    exact h.walked.2.2.2

/-- **What a failing pass leaves.**  A pass of a linked expression that fails does so at a
position: that of a token, or the end of the sequence if the tokens do not leave one value.
Every function from that position on, the one that fails included, is as it was before the pass,
and every function in front of it is as walking the tokens in front, which succeeds, leaves it.
The commands are, in order, those of the directives in front, each of which has given one.  Every
synchronized variable is as it was fed, less the samples through the common key exactly if the
last of them stands in front of the position.  All this is also what a pass in place leaves,
whose functions change what they remember and call the host while they still check. -/
theorem effect_of_failure (h : e.IsLinked) :
    (∀ fault, e.evaluate.2.2 = .error fault ↔ ∃ j, e.FailsAt j fault) ∧
      ∀ j fault, e.FailsAt j fault →
        (∀ i, j ≤ i → functionAt? e.evaluate.1.tokens i = functionAt? e.tokens i) ∧
        (walk e.table e.commonKey? (e.fed.take j) {}).outcome.isOk = true ∧
        (∀ i, i < j → functionAt? e.evaluate.1.tokens i =
          functionAt? (walk e.table e.commonKey? (e.fed.take j) {}).tokens i) ∧
        e.evaluate.2.1 = (List.range j).filterMap e.commandAt? ∧
        (∀ i d, i < j → e.fed[i]? = some (.function (.directive d)) →
          (e.commandAt? i).isSome = true) ∧
        (∀ last, Link.lastSynch? e.tokens = some last →
          (last < j → ∃ key, e.commonKey? = some key ∧
            ∀ (i : Nat) (s : Synch), e.fed[i]? = some (.synch s) →
              e.evaluate.1.tokens[i]? =
                some (.synch { s with buffer := s.buffer.filter fun k => key < k })) ∧
          (j ≤ last → ∀ (i : Nat) (s : Synch), e.fed[i]? = some (.synch s) →
            e.evaluate.1.tokens[i]? = some (.synch s))) ∧
        ∀ (σ : Type) (obey : σ → Command → σ) (host : σ), e.evaluateInPlace obey host =
          (.error fault, e.evaluate.1, e.evaluate.2.1.foldl obey host) := by
  refine ⟨fun fault => evaluate_error_iff h.linked, fun j fault hfail => ?_⟩
  obtain ⟨htokens, hreached, hcommands, -⟩ := hfail.walked
  have houtcome : e.evaluate.2.2 = .error fault := (evaluate_error_iff h.linked).2 ⟨j, hfail⟩
  have hj : j ≤ e.fed.length := hreached ▸ reached_le _ _ _ _
  have htake : (e.fed.take j).length = j := by rw [List.length_take, Nat.min_eq_left hj]
  have hlen : (walk e.table e.commonKey? (e.fed.take j) {}).tokens.length =
      (e.fed.take j).length := length_walk _ _ _ _
  have hfunction : ∀ i, functionAt? e.evaluate.1.tokens i =
      functionAt? ((walk e.table e.commonKey? (e.fed.take j) {}).tokens ++ e.fed.drop j) i := by
    intro i
    rw [evaluate_of_linked h.linked, ← htokens]
    exact functionAt?_kept e i
  refine ⟨fun i hi => ?_, ?_, fun i hi => ?_, ?_, fun i d hi hat => ?_, fun last hlast => ?_, ?_⟩
  · rw [hfunction, functionAt?_append_right hlen (htake.symm ▸ hi), List.take_append_drop,
      functionAt?_fed]
  · obtain ⟨below, hbelow⟩ := exists_walk_take (Nat.le_of_eq hreached.symm)
    rw [hbelow]
    rfl
  · rw [hfunction, functionAt?_append_left (by rwa [hlen, htake])]
  · rw [evaluate_of_linked h.linked]
    exact hcommands.trans (commands_take (Nat.le_of_eq hreached.symm))
  · obtain ⟨below, step, hbelow, hstep⟩ := exists_step_of_lt_reached (hreached.symm ▸ hi) hat
    rw [commandAt?, hat, hbelow]
    cases Token.stepOk hstep with
    | @function _ a hle hcall =>
        cases Function.callOk hcall with
        | directive _ happly =>
            exact Option.isSome_iff_exists.2 ⟨_, congrArg Except.toOption happly⟩
  · rw [← hreached]
    constructor
    · intro hpast
      obtain ⟨key, hkey, hreported⟩ := h.reportedKey?_of_past hlast hpast
      refine ⟨key, hkey, fun i s hs => ?_⟩
      rw [synch_after h.linked hs, hreported]
      rfl
    · intro hnot i s hs
      rw [synch_after h.linked hs, h.reportedKey?_of_not_past hlast hnot]
      rfl
  · intro σ obey host
    rw [evaluateInPlace_eq h, houtcome]

/-- A total of a synchronized variable and an order for the host, and then a product with a
text. -/
def refused : Expression :=
  let draft : Expression :=
    { tokens := [.reference 0, .function .valueSynch, .constant (.constant (.int 2)),
        .function (.aggregate ⟨.count, .total, .empty 10⟩), .constant (.constant (.int 5)),
        .function (.directive .orderOption), .constant (.constant (.text "five")),
        .function (.operator (.arithmetic .multiply))]
      table := ⟨[{ name := "A" }], by decide⟩ }
  draft.link.1.calls [.set "A" ⟨.int 1, 1000000000⟩]

/-- The example fails at the product, behind the order that the host has been given. -/
theorem effect_of_refused :
    refused.IsLinked ∧ ∃ fault, refused.FailsAt 7 fault ∧
      functionAt? refused.evaluate.1.tokens 7 = functionAt? refused.tokens 7 ∧
      refused.evaluate.2.1 = [.order 5] ∧
      refused.evaluateInPlace (fun told c => told ++ [c]) [] =
        (.error fault, refused.evaluate.1, [.order 5]) := by
  have hlinked : refused.IsLinked := IsLinked.calls (isLinked_link rfl rfl) _
  have hfails : refused.evaluate.2.2.isOk = false := by decide +kernel
  have hreached : refused.walked.reached = 7 := by decide +kernel
  have hcommands : (List.range 7).filterMap refused.commandAt? = [.order 5] := by decide +kernel
  cases houtcome : refused.evaluate.2.2 with
  | ok r =>
      rw [houtcome] at hfails
      exact nomatch hfails
  | error fault =>
      obtain ⟨hwhere, heffect⟩ := effect_of_failure hlinked
      obtain ⟨j, hfail⟩ := (hwhere fault).1 houtcome
      obtain rfl : j = 7 := hfail.walked.2.1.symm.trans hreached
      obtain ⟨hbehind, -, -, htold, -, -, hinPlace⟩ := heffect 7 fault hfail
      have hgiven := htold.trans hcommands
      refine ⟨hlinked, fault, hfail, hbehind 7 (Nat.le_refl 7), hgiven, ?_⟩
      rw [hinPlace, hgiven]
      rfl

end Expression

end Telemetry
