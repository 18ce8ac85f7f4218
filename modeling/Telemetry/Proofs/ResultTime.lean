import Mathlib.Data.List.Nodup
import Telemetry.Proofs.Written

/-!
# The time of a result

Which operands a result comes from, and which time it has.  `flow` runs a sequence on the positions
of its operands in place of their values: what a function leaves comes from all operands behind its
own, and what a directive takes comes into no result (`flowing`).  A function gives its result the
latest time among its operands, be it a stateless operator, a windowed statistic, a running
calculation or one that linking has given its meaning (`Function.time_of_call`), and a directive
leaves nothing (`Token.keepsTimes_of_step`).  So every value on the stack has the latest time among
the operands behind it (`Expression.Proper.dated_take`), and so has the result
(`Expression.time_of_result`).
-/

namespace Telemetry

/-! ### Where values come from -/

/-- The operands behind the values of a pass, by their positions. -/
structure Flow where
  /-- Those behind each value on the stack, newest first. -/
  entries : List (List Nat) := []
  /-- Those behind the values that directives have taken. -/
  spent : List Nat := []

/-- The flow after the token at a position. -/
def Flow.step (flow : Flow) (t : Token) (i : Nat) : Flow :=
  match t with
  | .function (.directive d) =>
    ⟨flow.entries.drop d.arity, (flow.entries.take d.arity).flatten ++ flow.spent⟩
  | .function f =>
    { flow with
      entries := (flow.entries.take f.inputs).flatten :: flow.entries.drop f.inputs }
  | _ => { flow with entries := [i] :: flow.entries }

/-- The flow of a sequence of tokens. -/
def flow (tokens : List Token) : Flow :=
  tokens.zipIdx.foldl (fun flow entry => flow.step entry.1 entry.2) {}

/-- The positions of the operands. -/
def operands (tokens : List Token) : List Nat :=
  (List.range tokens.length).filter fun i => tokens[i]?.any Token.isOperand

/-- The operands whose value flows into the result: all but those that directives take. -/
def flowing (tokens : List Token) : List Nat :=
  (operands tokens).filter fun i => i ∉ (flow tokens).spent

/-- The sum flows out of both its operands, and out of nothing that the directive takes. -/
example : flowing [.reference 0, .reference 1, .function (.directive .reportOffset),
    .reference 2, .function (.operator (.arithmetic .add))] = [0, 3] := by decide

theorem flow_concat (tokens : List Token) (t : Token) :
    flow (tokens ++ [t]) = (flow tokens).step t tokens.length := by
  rw [flow, List.zipIdx_append, List.foldl_append]
  simp [flow]

theorem operands_concat (tokens : List Token) (t : Token) :
    operands (tokens ++ [t]) =
      operands tokens ++ if t.isOperand then [tokens.length] else [] := by
  have hfront : ∀ i ∈ List.range tokens.length,
      ((tokens ++ [t])[i]?.any Token.isOperand) = (tokens[i]?.any Token.isOperand) := by
    intro i hi
    rw [List.getElem?_append_left (List.mem_range.1 hi)]
  rw [operands, List.length_append, List.length_singleton, List.range_succ, List.filter_append,
    List.filter_congr hfront, operands]
  cases h : t.isOperand <;> simp [h]

/-- The flow is the same whatever the tokens remember. -/
theorem Flow.step_bare (flow : Flow) (t : Token) (i : Nat) : flow.step t.bare i = flow.step t i := by
  cases t with
  | function f =>
      cases f with
      | incremental state => cases state <;> rfl
      | _ => rfl
  | _ => rfl

theorem flow_bare (tokens : List Token) : flow (tokens.map Token.bare) = flow tokens := by
  induction tokens using List.reverseRecOn with
  | nil => rfl
  | append_singleton tokens t ih =>
      rw [List.map_append, List.map_singleton, flow_concat, flow_concat, ih, Flow.step_bare,
        List.length_map]

theorem flowing_congr {ts us : List Token} (h : ts.map Token.bare = us.map Token.bare) :
    flowing ts = flowing us := by
  have hoperands : ∀ ts : List Token, operands (ts.map Token.bare) = operands ts := by
    intro ts
    rw [operands, List.length_map, operands]
    refine List.filter_congr fun i _ => ?_
    rw [List.getElem?_map]
    cases ts[i]? with
    | none => rfl
    | some t => exact t.isOperand_bare
  rw [flowing, flowing, ← hoperands, ← flow_bare, h, hoperands, flow_bare]

/-- A token puts no operand away but those that it takes, and makes none. -/
theorem Flow.perm_step (flow : Flow) (t : Token) (i : Nat) :
    ((flow.step t i).entries.flatten ++ (flow.step t i).spent).Perm
      (flow.entries.flatten ++ flow.spent ++ if t.isOperand then [i] else []) := by
  have htaken : ∀ n, (flow.entries.take n).flatten ++ (flow.entries.drop n).flatten =
      flow.entries.flatten := by
    intro n
    rw [← List.flatten_append, List.take_append_drop]
  have hfunction : ∀ n, (((flow.entries.take n).flatten :: flow.entries.drop n).flatten ++
      flow.spent).Perm (flow.entries.flatten ++ flow.spent ++ []) := by
    intro n
    rw [List.flatten_cons, htaken, List.append_nil]
  have hoperand : (([i] :: flow.entries).flatten ++ flow.spent).Perm
      (flow.entries.flatten ++ flow.spent ++ [i]) := by
    rw [List.flatten_cons, List.append_assoc]
    exact List.perm_append_comm
  cases t with
  | function f =>
      cases f with
      | directive d =>
          show ((flow.entries.drop d.arity).flatten ++
            ((flow.entries.take d.arity).flatten ++ flow.spent)).Perm
              (flow.entries.flatten ++ flow.spent ++ [])
          rw [← htaken d.arity, ← List.append_assoc, List.append_nil]
          exact List.perm_append_comm.append_right _
      | _ => exact hfunction _
  | _ => exact hoperand

/-- **Every operand is behind one value on the stack, or has gone to a directive.** -/
theorem perm_operands (tokens : List Token) :
    ((flow tokens).entries.flatten ++ (flow tokens).spent).Perm (operands tokens) := by
  induction tokens using List.reverseRecOn with
  | nil => exact List.Perm.refl []
  | append_singleton tokens t ih =>
      rw [flow_concat, operands_concat]
      exact ((flow tokens).perm_step t tokens.length).trans (ih.append_right _)

/-- What flows into the one value that is left is what is behind it. -/
theorem mem_flowing_iff {tokens : List Token} {positions : List Nat}
    (h : (flow tokens).entries = [positions]) {i : Nat} : i ∈ flowing tokens ↔ i ∈ positions := by
  have hperm := perm_operands tokens
  rw [h, List.flatten_singleton] at hperm
  have hnodup : (positions ++ (flow tokens).spent).Nodup :=
    hperm.nodup_iff.2 (List.nodup_range.filter _)
  have hapart : i ∈ positions → i ∉ (flow tokens).spent :=
    fun hi hspent => (List.disjoint_of_nodup_append hnodup) hi hspent
  rw [flowing, List.mem_filter, ← hperm.mem_iff, List.mem_append, decide_eq_true_eq]
  constructor
  · rintro ⟨hi | hspent, hnot⟩
    · exact hi
    · exact absurd hspent hnot
  · intro hi
    exact ⟨Or.inl hi, hapart hi⟩

/-! ### Times of calls -/

/-- The latest time is at least as late as that of every operand, and it is that of one of them. -/
theorem newest_spec {xs : List Timed} (hne : xs ≠ []) :
    (∃ x ∈ xs, x.time = newest xs) ∧ ∀ x ∈ xs, x.time ≤ newest xs := by
  induction xs using List.reverseRecOn with
  | nil => exact absurd rfl hne
  | append_singleton xs x ih =>
      have hnewest : newest (xs ++ [x]) = later (newest xs) x.time := by
        rw [newest, List.foldl_append]
        rfl
      rw [hnewest]
      rcases Int64.le_total (newest xs) x.time with hle | hge
      · rw [later_of_le hle]
        refine ⟨⟨x, List.mem_append_right _ (List.mem_singleton.2 rfl), rfl⟩, fun y hy => ?_⟩
        rcases List.mem_append.1 hy with hy | hy
        · exact Int64.le_trans ((ih (List.ne_nil_of_mem hy)).2 y hy) hle
        · rw [List.mem_singleton.1 hy]
          exact Int64.le_refl _
      · rw [later_of_ge hge]
        refine ⟨?_, fun y hy => ?_⟩
        · by_cases hnil : xs = []
          · subst hnil
            exact ⟨x, List.mem_singleton.2 rfl, Int64.le_antisymm hge (constantTime_le _)⟩
          · obtain ⟨y, hy, hlatest⟩ := (ih hnil).1
            exact ⟨y, List.mem_append_left _ hy, hlatest⟩
        · rcases List.mem_append.1 hy with hy | hy
          · exact (ih (List.ne_nil_of_mem hy)).2 y hy
          · rw [List.mem_singleton.1 hy]
            exact hge

/-- What belongs to no instant does not count. -/
theorem newest_constant (x label : Timed) (h : label.time = constantTime) :
    newest [x, label] = x.time := by
  show later (newest [x]) label.time = x.time
  rw [newest_singleton, h, later_of_ge (constantTime_le _)]

/-- **No function loses a time or makes one up.**  A directive leaves nothing.  Any other function
leaves one value, with the latest time among its operands, provided that the label of an alias
belongs to no instant. -/
theorem Function.time_of_call {f : Function} {operands : List Timed} {a : Answer}
    (h : f.call operands = .ok a)
    (hlabel : f = .secondName → ∀ x ∈ operands.getLast?, x.time = constantTime) :
    (∃ d, f = .directive d ∧ a.results = []) ∨
      (∀ d, f ≠ .directive d) ∧ ∃ r, a.results = [r] ∧ r.time = newest operands := by
  cases callOk h with
  | operator op happly => exact Or.inr ⟨nofun, _, rfl, (Rule.apply_ok happly).2⟩
  | aggregate a happly =>
      obtain ⟨x, history, -, -, rfl, -⟩ := Aggregate.apply_ok happly
      exact Or.inr ⟨nofun, _, rfl, rfl⟩
  | incremental i happly => exact Or.inr ⟨nofun, _, rfl, (Incremental.apply_ok happly).2.1⟩
  | secondName operand label =>
      exact Or.inr ⟨nofun, operand, rfl, (newest_constant _ _ (hlabel rfl label rfl)).symm⟩
  | valueSynch operand => exact Or.inr ⟨nofun, operand, rfl, (newest_singleton _).symm⟩
  | directive d => exact Or.inl ⟨d, rfl, rfl⟩

/-- Every function but a directive takes an operand. -/
theorem Function.inputs_pos {f : Function} (h : ∀ d, f ≠ .directive d) : 0 < f.inputs := by
  cases f with
  | operator op =>
      show 0 < op.arity
      rw [← op.takes_rule]
      cases op.rule <;> exact Nat.succ_pos _
  | incremental i => cases i <;> exact Nat.succ_pos _
  | directive d => exact absurd rfl (h d)
  | _ => exact Nat.succ_pos _

/-- A function keeps the times on a stack: a directive takes its operands off, and any other
function leaves one value in their place, with the latest time among them. -/
def Function.KeepsTimes (f : Function) (before after : List Timed) : Prop :=
  (∃ d, f = .directive d) ∧ after = before.drop f.inputs ∨
    (∀ d, f ≠ .directive d) ∧ ∃ r, after = r :: before.drop f.inputs ∧
      (∃ x ∈ before.take f.inputs, x.time = r.time) ∧ ∀ x ∈ before.take f.inputs, x.time ≤ r.time

/-- **A step of a function keeps the times.** -/
theorem Token.keepsTimes_of_step {table : VariableTable} {key : Option Int64} {f : Function}
    {stack : Stack} {step : Step} (hstep : (Token.function f).step table key stack = .ok step)
    (hlabel : f = .secondName → ∀ x ∈ stack.operands.head?, x.time = constantTime) :
    f.KeepsTimes stack.operands step.stack.operands := by
  cases Token.stepOk hstep with
  | @function f a hle hcall =>
      have htop : ∀ x ∈ (stack.operands.take f.inputs).reverse.getLast?,
          stack.operands.head? = some x := by
        intro x hx
        rw [List.getLast?_reverse, List.head?_take] at hx
        split at hx
        · cases hx
        · exact hx
      rcases Function.time_of_call hcall fun hf x hx => hlabel hf x (htop x hx) with
        ⟨d, hd, hnone⟩ | ⟨hd, r, hone, hr⟩
      · exact Or.inl ⟨⟨d, hd⟩, by rw [hnone]; rfl⟩
      · have htaken : (stack.operands.take f.inputs).reverse ≠ [] := by
          have hpos := Function.inputs_pos hd
          have hlength := Function.length_of_call hcall
          intro hnil
          rw [hnil, List.length_nil] at hlength
          omega
        obtain ⟨⟨x, hx, hxr⟩, hlatest⟩ := newest_spec htaken
        exact Or.inr ⟨hd, r, by rw [hone]; rfl, ⟨x, List.mem_reverse.1 hx, hxr.trans hr.symm⟩,
          fun y hy => hr ▸ hlatest y (List.mem_reverse.2 hy)⟩

/-! ### Times of values -/

/-- A stack that gives a result holds nothing else. -/
theorem Stack.operands_of_result {s : Stack} {r : Timed} (h : s.result = .ok r) :
    s.operands = [r] := by
  rw [result] at h
  split at h
  · next x hx =>
      cases h
      exact hx
  · cases h

/-- The time of the operand that a token leaves: a constant belongs to no instant, a reference has
the time of its variable, and a synchronized variable that of the common key. -/
def Token.operandTime? (table : VariableTable) (key : Option Instant) : Token → Option Instant
  | .constant _ => some constantTime
  | .reference id => (table.get? id).map (·.sample.time)
  | .synch _ => key
  | .function _ => none

theorem Token.operandTime?_bare {table : VariableTable} {key : Option Instant} (t : Token) :
    t.bare.operandTime? table key = t.operandTime? table key := by
  cases t <;> rfl

/-- One token more has been walked: its step was taken. -/
theorem exists_step_of_walk_take {table : VariableTable} {key : Option Int64} {tokens : List Token}
    {stack after : Stack} {n : Nat} (hn : n < tokens.length)
    (h : (walk table key (tokens.take (n + 1)) stack).outcome = .ok after) :
    ∃ below step, (walk table key (tokens.take n) stack).outcome = .ok below ∧
      tokens[n].step table key below = .ok step ∧ step.stack = after := by
  have hlength : (tokens.take (n + 1)).length = n + 1 := List.length_take_of_le hn
  have hreached : n < (walk table key (tokens.take (n + 1)) stack).reached := by
    rw [reached_of_walk_ok h, hlength]
    exact Nat.lt_succ_self n
  have hat : (tokens.take (n + 1))[n]? = some tokens[n] := by
    rw [List.getElem?_take_of_lt (Nat.lt_succ_self n), List.getElem?_eq_getElem hn]
  obtain ⟨below, step, hbelow, hstep⟩ := exists_step_of_lt_reached hreached hat
  rw [List.take_take, Nat.min_eq_left (Nat.le_succ n)] at hbelow
  have hnext := walk_take_succ hbelow (List.getElem?_eq_getElem hn) hstep
  rw [hnext] at h
  exact ⟨below, step, hbelow, hstep, Except.ok.inj h⟩

namespace Expression

variable {e : Expression}

/-- The time of the operand at a position in the next pass. -/
def operandTime? (e : Expression) (i : Nat) : Option Instant :=
  e.tokens[i]?.bind (Token.operandTime? e.table e.commonKey?)

/-- A value has the latest time among the operands behind it. -/
structure Dated (e : Expression) (positions : List Nat) (x : Timed) : Prop where
  attained : ∃ i ∈ positions, e.operandTime? i = some x.time
  latest : ∀ i ∈ positions, ∃ t, e.operandTime? i = some t ∧ t ≤ x.time

/-- What is fed at a position has the time of the operand there. -/
theorem operandTime?_of_fed {i : Nat} {t : Token} (h : e.fed[i]? = some t) :
    e.operandTime? i = t.operandTime? e.table e.commonKey? := by
  have hat : e.tokens[i]?.map Token.bare = some t.bare := by
    rw [← List.getElem?_map, ← e.map_bare_fed, List.getElem?_map, h]
    rfl
  obtain ⟨u, hu, hbare⟩ := Option.map_eq_some_iff.1 hat
  rw [operandTime?, hu, Option.bind_some, ← u.operandTime?_bare, hbare, t.operandTime?_bare]

/-- A value with the latest time among values is behind all operands behind them. -/
theorem Dated.flatten {entries : List (List Nat)} {xs : List Timed}
    (h : List.Forall₂ e.Dated entries xs) {r : Timed} (hmem : ∃ x ∈ xs, x.time = r.time)
    (hle : ∀ x ∈ xs, x.time ≤ r.time) : e.Dated entries.flatten r := by
  constructor
  · obtain ⟨x, hx, htime⟩ := hmem
    obtain ⟨positions, hpositions, hdated⟩ := exists_entry_of_mem h hx
    obtain ⟨i, hi, hat⟩ := hdated.attained
    exact ⟨i, List.mem_flatten_of_mem hpositions hi, by rw [hat, htime]⟩
  · intro i hi
    obtain ⟨positions, hpositions, hi⟩ := List.mem_flatten.1 hi
    obtain ⟨x, hx, hdated⟩ := exists_entry_of_mem h.flip hpositions
    obtain ⟨t, ht, hlatest⟩ := hdated.latest i hi
    exact ⟨t, ht, Int64.le_trans hlatest (hle x hx)⟩

theorem dated_operand {i : Nat} {x : Timed} (h : e.operandTime? i = some x.time) :
    e.Dated [i] x := by
  refine ⟨⟨i, List.mem_singleton.2 rfl, h⟩, fun j hj => ?_⟩
  rw [List.mem_singleton.1 hj]
  exact ⟨x.time, h, Int64.le_refl _⟩

/-- **A step leaves values that have the latest time among the operands behind them.** -/
theorem dated_step {flow : Flow} {stack : Stack} {i : Nat} {t : Token} {step : Step}
    (h : List.Forall₂ e.Dated flow.entries stack.operands) (hat : e.fed[i]? = some t)
    (hstep : t.step e.table e.commonKey? stack = .ok step)
    (hconstant : ∀ x, t = .constant x → x.time = constantTime)
    (hlabel : t = .function .secondName → ∀ x ∈ stack.operands.head?, x.time = constantTime) :
    List.Forall₂ e.Dated (flow.step t i).entries step.stack.operands := by
  have htime := operandTime?_of_fed hat
  cases Token.stepOk hstep with
  | constant x => exact .cons (dated_operand (htime.trans (congrArg some (hconstant x rfl).symm))) h
  | reference id hv => exact .cons (dated_operand (by rw [htime, Token.operandTime?, hv]; rfl)) h
  | @synch s key x hkey hx =>
      have hreported : x.time = key := by
        rw [Synch.report] at hx
        split at hx
        · cases hx
          rfl
        · cases hx
      exact .cons (dated_operand (by rw [htime, Token.operandTime?, hkey, hreported])) h
  | @function f a hle hcall =>
      rcases Token.keepsTimes_of_step hstep fun hf => hlabel (by rw [hf]) with
        ⟨⟨d, rfl⟩, hafter⟩ | ⟨hd, r, hafter, hmem, hlatest⟩
      · rw [hafter]
        exact List.forall₂_drop _ h
      · have hflow : (flow.step (.function f) i).entries =
            (flow.entries.take f.inputs).flatten :: flow.entries.drop f.inputs := by
          cases f with
          | directive d => exact absurd rfl (hd d)
          | _ => rfl
        rw [hafter, hflow]
        exact .cons (Dated.flatten (List.forall₂_take _ h) hmem hlatest) (List.forall₂_drop _ h)

/-- When the walk comes to an alias, its label is on top. -/
theorem Proper.label_on_top (h : e.Proper) (hlinked : e.linked = true) {n : Nat}
    {below : Stack} (hn : n < e.fed.length) (halias : e.fed[n] = .function .secondName)
    (hbelow : (walk e.table e.commonKey? (e.fed.take n) {}).outcome = .ok below) :
    ∀ x ∈ below.operands.head?, x.time = constantTime := by
  have hlabelled : Link.Labelled e.fed := (h.labels hlinked).of_bare e.map_bare_fed
  obtain ⟨x, hx⟩ := hlabelled n (halias ▸ List.getElem?_eq_getElem hn)
  have hconstant : x.time = constantTime := by
    obtain ⟨i, hi⟩ := List.mem_iff_getElem?.1 (Link.before?_mem hx)
    exact h.constants x (List.mem_of_getElem? (Link.getElem?_of_bare e.map_bare_fed.symm
      (fun _ => Token.eq_of_bare rfl) hi))
  cases n with
  | zero => cases hx
  | succ m =>
      have hm : m < e.fed.length := Nat.lt_of_succ_lt hn
      have hfed : e.fed[m] = .constant x := by
        rw [Link.before?, if_pos (Nat.le_add_left 1 m), Nat.add_sub_cancel,
          List.getElem?_eq_getElem hm] at hx
        exact Option.some.inj hx
      obtain ⟨bottom, step, -, hstep, rfl⟩ := exists_step_of_walk_take hm hbelow
      rw [hfed] at hstep
      cases hstep
      intro y hy
      cases hy
      exact hconstant

/-- **In a pass every value on the stack has the latest time among the operands behind it.** -/
theorem Proper.dated_take (h : e.Proper) (hlinked : e.linked = true) {n : Nat} {stack : Stack}
    (hn : n ≤ e.fed.length)
    (hstack : (walk e.table e.commonKey? (e.fed.take n) {}).outcome = .ok stack) :
    List.Forall₂ e.Dated (flow (e.fed.take n)).entries stack.operands := by
  induction n generalizing stack with
  | zero =>
      rw [List.take_zero] at hstack ⊢
      cases hstack
      exact .nil
  | succ n ih =>
      have hat : e.fed[n]? = some e.fed[n] := List.getElem?_eq_getElem hn
      obtain ⟨below, step, hbelow, hstep, rfl⟩ := exists_step_of_walk_take hn hstack
      rw [List.take_add_one, hat, Option.toList_some, flow_concat,
        List.length_take_of_le (Nat.le_of_lt hn)]
      refine dated_step (ih (Nat.le_of_lt hn) hbelow) hat hstep (fun x hx => ?_)
        fun halias => h.label_on_top hlinked hn halias hbelow
      rw [hx] at hat
      exact h.constants x (List.mem_of_getElem? (Link.getElem?_of_bare e.map_bare_fed.symm
        (fun _ => Token.eq_of_bare rfl) hat))

/-- In a pass that walks all tokens every function keeps the times. -/
theorem Proper.keepsTimes (h : e.Proper) (hlinked : e.linked = true) {stack : Stack}
    (hstack : (walk e.table e.commonKey? e.fed {}).outcome = .ok stack) {n : Nat} {f : Function}
    (hf : e.fed[n]? = some (.function f)) :
    ∃ below after, (walk e.table e.commonKey? (e.fed.take n) {}).outcome = .ok below ∧
      (walk e.table e.commonKey? (e.fed.take (n + 1)) {}).outcome = .ok after ∧
      f.KeepsTimes below.operands after.operands := by
  obtain ⟨hn, hat⟩ := List.getElem?_eq_some_iff.1 hf
  have hreached : n < (walk e.table e.commonKey? e.fed {}).reached := by
    rwa [reached_of_walk_ok hstack]
  obtain ⟨below, step, hbelow, hstep⟩ := exists_step_of_lt_reached hreached hf
  refine ⟨below, step.stack, hbelow, congrArg Walk.outcome (walk_take_succ hbelow hf hstep), ?_⟩
  exact Token.keepsTimes_of_step hstep fun hname =>
    h.label_on_top hlinked hn (hat.trans (congrArg Token.function hname)) hbelow

/-- **The time of a result.**  Let a linked expression be read from items or written by hand, and
let it be in any state that calls leave.  If its next pass gives a result, the time of the result
is that of one of the operands that flow into it, and none of them is later.  No function on the
way loses a time or makes one up: what it leaves, if it is no directive, is one value with the
latest time among the operands that it takes. -/
theorem time_of_result (h : e.Written) (hlinked : e.linked = true) {r : Timed}
    (hr : e.evaluate.2.2 = .ok r) :
    (∃ i ∈ flowing e.tokens, e.operandTime? i = some r.time) ∧
      (∀ i ∈ flowing e.tokens, ∃ t, e.operandTime? i = some t ∧ t ≤ r.time) ∧
      ∀ (n : Nat) (f : Function), e.fed[n]? = some (.function f) →
        ∃ below after, (walk e.table e.commonKey? (e.fed.take n) {}).outcome = .ok below ∧
          (walk e.table e.commonKey? (e.fed.take (n + 1)) {}).outcome = .ok after ∧
          f.KeepsTimes below.operands after.operands := by
  rw [outcome_of_linked hlinked] at hr
  obtain ⟨stack, hstack, hresult⟩ := bind_eq_ok hr
  have hdated := h.proper.dated_take hlinked (Nat.le_refl e.fed.length)
    (by rw [List.take_length]; exact hstack)
  rw [List.take_length, Stack.operands_of_result hresult] at hdated
  obtain ⟨positions, rest, hpositions, hrest, hentries⟩ := List.forall₂_cons_right_iff.1 hdated
  rw [List.forall₂_nil_right_iff.1 hrest] at hentries
  have hflow : ∀ i, i ∈ flowing e.tokens ↔ i ∈ positions := by
    intro i
    rw [← flowing_congr e.map_bare_fed]
    exact mem_flowing_iff hentries
  refine ⟨?_, fun i hi => hpositions.latest i ((hflow i).1 hi),
    fun n f hf => h.proper.keepsTimes hlinked hstack hf⟩
  obtain ⟨i, hi, htime⟩ := hpositions.attained
  exact ⟨i, (hflow i).2 hi, htime⟩

theorem Written.calls (h : e.Written) (cs : List Call) : (e.calls cs).Written := by
  induction cs generalizing e with
  | nil => exact h
  | cons c cs ih => exact ih (h.call c)

/-- What is reported to the host is no part of the sum. -/
def mixedItems : List (List Char) :=
  ["C", "ReportOffset", "A", "\"P\"", "Alias", "ValueSynch", "B", "5", "RunningTotal", "+"].map
    String.toList

/-- The record that is latest is the one that the directive takes. -/
def mixedCalls : List Call :=
  [.set "A" ⟨.int 1, 1500000000⟩, .set "B" ⟨.int 2, 2700000000⟩, .set "C" ⟨.int 3, 9000000000⟩]

/-- The example has the time of `B`, which is later than the common key. -/
theorem time_of_mixed :
    ∃ e r, ofItems {} mixedItems = .ok e ∧ (e.calls mixedCalls).evaluate.2.2 = .ok r ∧
      r.time = 2700000000 ∧ ∃ i ∈ flowing (e.calls mixedCalls).tokens,
        (e.calls mixedCalls).operandTime? i = some 2700000000 := by
  have hcheck : ((ofItems {} mixedItems).toOption.any fun e =>
      (e.calls mixedCalls).evaluate.2.2.toOption.any (·.time == 2700000000)) = true := by
    decide +kernel
  cases he : ofItems {} mixedItems with
  | error fault =>
      rw [he] at hcheck
      cases hcheck
  | ok e =>
      rw [he] at hcheck
      cases hr : (e.calls mixedCalls).evaluate.2.2 with
      | error fault =>
          simp [Except.toOption, hr] at hcheck
      | ok r =>
          have htime : r.time = 2700000000 := by simpa [Except.toOption, hr] using hcheck
          have hlinked := ((Continues.refl (of_ofItems he).1).calls mixedCalls).linked
          obtain ⟨⟨i, hi, hat⟩, -⟩ := time_of_result ((Written.parsed he).calls mixedCalls) hlinked hr
          exact ⟨e, r, rfl, hr, htime, i, hi, htime ▸ hat⟩

end Expression

end Telemetry
