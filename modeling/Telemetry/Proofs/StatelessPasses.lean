import Telemetry.Proofs.PassInPlace

/-!
# Passes without memory

A function that is neither a windowed statistic nor a running calculation answers with itself as
it was (`Function.next_of_call`), so a walk over tokens none of which is stateful leaves all of
them as they were (`tokens_of_walk`).  An expression without stateful tokens has no synchronized
variable either, so its passes take no sample and forget none: after any session it is the
expression that was linked, with other samples in its table, and what it answers depends on these
alone (`Expression.stateless_pass`).
-/

namespace Telemetry

/-- A function that remembers nothing is the same after a call. -/
theorem Function.next_of_call {f : Function} {operands : List Timed} {a : Answer}
    (hstateless : f.isStateful = false) (h : f.call operands = .ok a) : a.next = f := by
  cases callOk h with
  | operator | secondName | valueSynch | directive => rfl
  | aggregate | incremental => cases hstateless

section Walks

variable {table : VariableTable} {key : Option Int64}

/-- A token that remembers nothing is the same after its step. -/
theorem Token.token_of_step {t : Token} {stack : Stack} {step : Step}
    (hstateless : t.isStateful = false) (h : t.step table key stack = .ok step) :
    step.token = t := by
  cases Token.stepOk h with
  | constant | reference | synch => rfl
  | @function f a hle hcall => exact congrArg Token.function (f.next_of_call hstateless hcall)

/-- **A walk over tokens that remember nothing leaves them as they were**, whether it gets to
their end or not. -/
theorem tokens_of_walk {tokens : List Token} (hstateless : tokens.any Token.isStateful = false)
    (stack : Stack) : (walk table key tokens stack).tokens = tokens := by
  induction tokens generalizing stack with
  | nil => rfl
  | cons t ts ih =>
      rw [List.any_cons, Bool.or_eq_false_iff] at hstateless
      obtain ⟨hfirst, hrest⟩ := hstateless
      cases hstep : t.step table key stack with
      | error fault => rw [walk_cons_error hstep]
      | ok step =>
          rw [walk_cons_ok hstep]
          show step.token :: _ = t :: ts
          rw [Token.token_of_step hfirst hstep, ih hrest]

end Walks

/-- Tokens none of which is stateful have no last synchronized variable. -/
theorem Link.lastSynch?_of_stateless {tokens : List Token}
    (hstateless : tokens.any Token.isStateful = false) : lastSynch? tokens = none := by
  cases hlast : lastSynch? tokens with
  | none => rfl
  | some last =>
      obtain ⟨s, hs⟩ := synch_of_lastSynch? hlast
      have hstateful : tokens.any Token.isStateful = true :=
        List.any_eq_true.2 ⟨.synch s, List.mem_of_getElem? hs, rfl⟩
      exact nomatch hstateless.symm.trans hstateful

namespace Expression

variable {e : Expression}

/-- The table of a linked expression has no part in its being linked. -/
theorem IsLinked.with_table (h : e.IsLinked) (table : VariableTable) :
    ({ e with table := table } : Expression).IsLinked := ⟨h.linked, h.last⟩

/-- A pass without memory leaves the expression as it was. -/
theorem evaluate_of_stateless (h : e.IsLinked) (hstateless : e.isStateful = false) :
    e.evaluate.1 = e := by
  have hlast : e.lastSynch = none := h.last.trans (Link.lastSynch?_of_stateless hstateless)
  have hkept : e.kept = e.tokens := by
    rw [kept, reportedKey?, hlast, Option.bind_none, Option.elim_none, walked, fed, hlast,
      Option.elim_none]
    exact tokens_of_walk hstateless {}
  rw [evaluate_of_linked h.linked, hkept]

/-- A session of an expression without memory changes nothing but the samples of its variables. -/
theorem calls_of_stateless (h : e.IsLinked) (hstateless : e.isStateful = false)
    (cs : List Call) : e.calls cs = { e with table := (e.calls cs).table } := by
  induction cs generalizing e with
  | nil => rfl
  | cons c cs ih =>
      have hcall : e.call c = { e with table := (e.call c).table } := by
        cases c with
        | set name sample => rw [call_set]
        | evaluate =>
            have hsame : e.call .evaluate = e := evaluate_of_stateless h hstateless
            rw [hsame]
      rw [calls_cons, hcall]
      exact ih (h.with_table _) hstateless

/-- **A pass without memory.**  Let no token of a linked expression be stateful.  With any
variables and any host, a pass that works in place leaves the expression, its tokens and its
variables, as it was, whether it succeeds or fails, and gives the result or fault and the
commands that the pass says.  After any two sessions that leave the same variables the next pass
is the same: its result or fault, its commands, and what it leaves.  So is a second pass in a
row. -/
theorem stateless_pass (h : e.IsLinked) (hstateless : e.isStateful = false) :
    (∀ (table : VariableTable) (σ : Type) (obey : σ → Command → σ) (host : σ),
      let now : Expression := { e with table := table }
      now.evaluateInPlace obey host =
        (now.evaluate.2.2, now, now.evaluate.2.1.foldl obey host)) ∧
      (∀ cs ds : List Call, (e.calls cs).table = (e.calls ds).table →
        (e.calls cs).evaluate = (e.calls ds).evaluate) ∧
      ∀ cs : List Call, (e.calls cs).evaluate.1.evaluate = (e.calls cs).evaluate := by
  refine ⟨fun table σ obey host => ?_, fun cs ds htable => ?_, fun cs => ?_⟩
  · have hnow := h.with_table table
    show Expression.evaluateInPlace _ obey host = _
    rw [evaluateInPlace_eq hnow, evaluate_of_stateless hnow hstateless]
  · rw [calls_of_stateless h hstateless cs, calls_of_stateless h hstateless ds, htable]
  · have hstate : (e.calls cs).isStateful = false := by
      rw [calls_of_stateless h hstateless cs]
      exact hstateless
    rw [evaluate_of_stateless (h.calls cs) hstate]

/-- An order for the host, and the sum of a variable and itself under a second name. -/
def doubled : Expression :=
  let draft : Expression :=
    { tokens := [.constant (.constant (.int 2)), .function (.directive .orderOption),
        .reference 0, .constant (.constant (.text "Again")), .function .secondName,
        .reference 1, .function (.operator (.arithmetic .multiply))]
      table := ⟨[{ name := "Power" }, { name := "Again" }], by decide⟩ }
  draft.link.1

/-- A session of the example with a pass that fails, and one without any pass. -/
theorem stateless_pass_of_doubled :
    let busy : List Call :=
      [.set "Power" ⟨.text "high", 10⟩, .evaluate, .evaluate, .set "Power" ⟨.int 3, 20⟩]
    let quiet : List Call := [.set "Power" ⟨.int 3, 20⟩]
    doubled.IsLinked ∧ doubled.isStateful = false ∧
      (doubled.calls busy).table = (doubled.calls quiet).table ∧
      (doubled.calls busy).evaluate = (doubled.calls quiet).evaluate ∧
      (doubled.calls busy).evaluate.2.1 = [.order 2] ∧
      (doubled.calls busy).evaluate.1.evaluate.2.1 = [.order 2] := by
  intro busy quiet
  have hlinked : doubled.IsLinked := isLinked_link rfl rfl
  have hstateless : doubled.isStateful = false := rfl
  have htable : (doubled.calls busy).table = (doubled.calls quiet).table := rfl
  obtain ⟨-, hsame, htwice⟩ := stateless_pass hlinked hstateless
  have hcommands : (doubled.calls busy).evaluate.2.1 = [.order 2] := by
    rw [hsame busy quiet htable]
    decide +kernel
  refine ⟨hlinked, hstateless, htable, hsame busy quiet htable, hcommands, ?_⟩
  rw [htwice, hcommands]

end Expression

end Telemetry
