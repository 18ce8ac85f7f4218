import Telemetry.Pass
import Telemetry.Proofs.Library
import Telemetry.Proofs.Mismatch

/-!
# Walks over tokens

What one call and one step can do, and from it what a walk can do.  A call that succeeds does what
its kind of function does (`CallOk`), on as many operands as the function declares
(`Function.length_of_call`).  A step that succeeds does what its kind of token does (`StepOk`): it
takes the operands that its token declares, leaves as many results as declared, and changes of the
token only what it remembers (`Token.step_ok`).  A step that fails has one of four reasons
(`StepFault`).  A walk that fails is a walk over the tokens in front of one token, whose own step
fails (`walk_fault`).
-/

namespace Telemetry

/-! ### Tokens without what they remember -/

/-- A running calculation before its first sample. -/
def Incremental.bare : Incremental → Incremental
  | .integrate _ => .integrate {}
  | .rateOfChange _ => .rateOfChange {}
  | .delta _ => .delta {}

/-- A function without what it remembers. -/
def Function.bare : Function → Function
  | .aggregate a => .aggregate { a with history := .empty 0 }
  | .incremental i => .incremental i.bare
  | f => f

/-- A token without what it remembers. -/
def Token.bare : Token → Token
  | .synch s => .synch { s with buffer := .empty, lastTime := none }
  | .function f => .function f.bare
  | t => t

@[simp] theorem Function.name_bare (f : Function) : f.bare.name = f.name := by
  cases f with
  | incremental i => cases i <;> rfl
  | _ => rfl

@[simp] theorem Function.inputs_bare (f : Function) : f.bare.inputs = f.inputs := by
  cases f with
  | incremental i => cases i <;> rfl
  | _ => rfl

@[simp] theorem Function.outputs_bare (f : Function) : f.bare.outputs = f.outputs := by
  cases f <;> rfl

@[simp] theorem Token.inputs_bare (t : Token) : t.bare.inputs = t.inputs := by
  cases t with
  | function f => exact f.inputs_bare
  | _ => rfl

@[simp] theorem Token.outputs_bare (t : Token) : t.bare.outputs = t.outputs := by
  cases t with
  | function f => exact f.outputs_bare
  | _ => rfl

@[simp] theorem Token.operatorName_bare (t : Token) : t.bare.operatorName = t.operatorName := by
  cases t with
  | function f => exact f.name_bare
  | _ => rfl

@[simp] theorem Token.isSynch_bare (t : Token) : t.bare.isSynch = t.isSynch := by
  cases t <;> rfl

@[simp] theorem Token.isStateful_bare (t : Token) : t.bare.isStateful = t.isStateful := by
  cases t with
  | function f => cases f <;> rfl
  | _ => rfl

/-- A token that remembers nothing is bare. -/
theorem Token.bare_of_stateless {t : Token} (h : t.isStateful = false) : t.bare = t := by
  cases t with
  | function f =>
      cases f with
      | aggregate a => cases h
      | incremental i => cases h
      | _ => rfl
  | synch s => cases h
  | _ => rfl

/-- What is bare a token that remembers nothing is that token. -/
theorem Token.eq_of_bare {t u : Token} (hu : u.isStateful = false) (h : t.bare = u) : t = u := by
  have ht : t.isStateful = false := by rw [← t.isStateful_bare, h, hu]
  rw [← bare_of_stateless ht, h]

/-! ### Calls -/

/-- A rule gives a result on as many operands as it takes, and the latest time among them. -/
theorem Rule.apply_ok {rule : Rule} {function : String} {operands : List Timed} {r : Timed}
    (h : rule.apply function operands = .ok r) :
    operands.length = rule.takes ∧ r.time = newest operands := by
  unfold apply at h
  split at h
  · obtain ⟨v, -, rfl⟩ := map_eq_ok h
    exact ⟨rfl, rfl⟩
  · obtain ⟨v, -, rfl⟩ := map_eq_ok h
    exact ⟨rfl, rfl⟩
  · obtain ⟨v, -, rfl⟩ := map_eq_ok h
    exact ⟨rfl, rfl⟩
  · cases h
    exact ⟨rfl, (newest_singleton _).symm⟩
  · cases h

/-- A windowed statistic reads the statistic off its history behind the sample. -/
theorem Aggregate.apply_ok {a next : Aggregate} {value control r : Timed}
    (h : a.apply value control = .ok (r, next)) :
    ∃ x history, value.value.toFloat a.name = .ok x ∧
      a.retain ⟨value.time, x⟩ control.value = .ok history ∧
      r = ⟨.float (history.evaluate a.statistic), newest [value, control]⟩ ∧
      next = { a with history } := by
  obtain ⟨x, hx, h⟩ := bind_eq_ok h
  obtain ⟨history, hhistory, h⟩ := bind_eq_ok h
  cases h
  exact ⟨x, history, hx, hhistory, rfl, rfl⟩

/-- A running calculation gives a result on as many operands as it takes, and the latest time among
them; it stays the calculation it is. -/
theorem Incremental.apply_ok {i next : Incremental} {operands : List Timed} {r : Timed}
    (h : i.apply operands = .ok (r, next)) :
    operands.length = i.takes ∧ r.time = newest operands ∧ next.bare = i.bare := by
  unfold apply at h
  split at h
  · obtain ⟨x, -, h⟩ := bind_eq_ok h
    obtain ⟨f, -, h⟩ := bind_eq_ok h
    cases h
    exact ⟨rfl, rfl, rfl⟩
  · obtain ⟨x, -, h⟩ := bind_eq_ok h
    cases h
    exact ⟨rfl, rfl, rfl⟩
  · obtain ⟨x, -, h⟩ := bind_eq_ok h
    cases h
    exact ⟨rfl, rfl, rfl⟩
  · cases h

/-- A directive gives its command on as many operands as its form takes. -/
theorem Directive.Form.apply_ok {function : String} {form : Form} {operands : List Timed}
    {c : Command} (h : form.apply function operands = .ok c) : operands.length = form.takes := by
  unfold apply at h
  split at h
  · rfl
  · rfl
  · rfl
  · cases h

/-- What a call that succeeds does. -/
inductive CallOk : Function → List Timed → Answer → Prop where
  | operator (op : Operator) {operands : List Timed} {r : Timed}
      (happly : op.rule.apply op.name operands = .ok r) :
      CallOk (.operator op) operands ⟨[r], .operator op, []⟩
  | aggregate (a : Aggregate) {value control r : Timed} {next : Aggregate}
      (happly : a.apply value control = .ok (r, next)) :
      CallOk (.aggregate a) [value, control] ⟨[r], .aggregate next, []⟩
  | incremental (i : Incremental) {operands : List Timed} {r : Timed} {next : Incremental}
      (happly : i.apply operands = .ok (r, next)) :
      CallOk (.incremental i) operands ⟨[r], .incremental next, []⟩
  /-- The label has to be a text, and is taken off. -/
  | secondName (operand label : Timed) (hlabel : label.value.isText = true) :
      CallOk .secondName [operand, label] ⟨[operand], .secondName, []⟩
  | valueSynch (operand : Timed) : CallOk .valueSynch [operand] ⟨[operand], .valueSynch, []⟩
  /-- A directive leaves a command and no result. -/
  | directive (d : Directive) {operands : List Timed} {c : Command}
      (happly : d.form.apply d.name operands = .ok c) :
      CallOk (.directive d) operands ⟨[], .directive d, [c]⟩

/-- **A call that succeeds** does what its kind of function does. -/
theorem Function.callOk {f : Function} {operands : List Timed} {a : Answer}
    (h : f.call operands = .ok a) : CallOk f operands a := by
  unfold call at h
  split at h
  · obtain ⟨r, happly, rfl⟩ := map_eq_ok h
    exact .operator _ happly
  · obtain ⟨⟨r, next⟩, happly, rfl⟩ := map_eq_ok h
    exact .aggregate _ happly
  · obtain ⟨⟨r, next⟩, happly, rfl⟩ := map_eq_ok h
    exact .incremental _ happly
  · split at h
    · next hlabel =>
        cases h
        exact .secondName _ _ hlabel
    · cases h
  · cases h
    exact .valueSynch _
  · obtain ⟨c, happly, rfl⟩ := map_eq_ok h
    exact .directive _ happly
  · cases h

/-- **A function answers to as many operands as it declares, and to no other number.**  With
`Function.call_mismatchOnly`, by which such a call never lacks operands, what a function declares
is what its evaluation works on. -/
theorem Function.length_of_call {f : Function} {operands : List Timed} {a : Answer}
    (h : f.call operands = .ok a) : operands.length = f.inputs := by
  rw [f.inputs_eq_takes]
  cases callOk h with
  | operator op happly => exact (Rule.apply_ok happly).1
  | incremental i happly => exact (Incremental.apply_ok happly).1
  | directive d happly => exact Directive.Form.apply_ok happly
  | aggregate | secondName | valueSynch => rfl

/-- **A call leaves as many results as the function declares, and the same function up to
what it remembers.** -/
theorem Function.call_ok {f : Function} {operands : List Timed} {a : Answer}
    (h : f.call operands = .ok a) : a.results.length = f.outputs ∧ a.next.bare = f.bare := by
  cases callOk h with
  | operator | secondName | valueSynch | directive => exact ⟨rfl, rfl⟩
  | aggregate a happly =>
      obtain ⟨x, history, -, -, -, rfl⟩ := Aggregate.apply_ok happly
      exact ⟨rfl, rfl⟩
  | incremental i happly =>
      exact ⟨rfl, congrArg Function.incremental (Incremental.apply_ok happly).2.2⟩

/-! ### Stacks -/

@[simp] theorem Stack.size_push (s : Stack) (x : Timed) : (s.push x).size = s.size + 1 := rfl

@[simp] theorem Stack.size_pushAll (s : Stack) (xs : List Timed) :
    (s.pushAll xs).size = s.size + xs.length := by
  induction xs generalizing s with
  | nil => rfl
  | cons x xs ih =>
      show ((s.push x).pushAll xs).size = s.size + (xs.length + 1)
      rw [ih (s.push x), size_push]
      omega

/-! ### Steps -/

/-- A function takes its operands off a stack that holds as many as it declares. -/
theorem Function.applyTo_of_le {f : Function} {stack : Stack} (h : f.inputs ≤ stack.size) :
    f.applyTo stack =
      (f.call (stack.operands.take f.inputs).reverse, ⟨stack.operands.drop f.inputs⟩) := by
  rw [f.inputs_eq_takes] at h ⊢
  simp only [applyTo, Stack.split?, if_pos h]

theorem Function.applyTo_of_lt {f : Function} {stack : Stack} (h : stack.size < f.inputs) :
    f.applyTo stack = (.error (.stackUnderflow f.name f.inputs stack.size), stack) := by
  rw [f.inputs_eq_takes] at h ⊢
  simp only [applyTo, Stack.split?, if_neg (Nat.not_le.2 h)]

/-- The operands off the top of a stack are as many as the function declares. -/
theorem Function.length_operands {f : Function} {stack : Stack} (h : f.inputs ≤ stack.size) :
    (stack.operands.take f.inputs).reverse.length = f.inputs := by
  rw [List.length_reverse, List.length_take]
  exact Nat.min_eq_left h

/-- What a step that succeeds does. -/
inductive StepOk (table : VariableTable) (key : Option Int64) (stack : Stack) :
    Token → Step → Prop where
  | constant (x : Timed) : StepOk table key stack (.constant x) ⟨.constant x, stack.push x, []⟩
  | reference (id : Nat) {v : Variable} (hv : table.get? id = some v) :
      StepOk table key stack (.reference id) ⟨.reference id, stack.push v.sample, []⟩
  /-- There is a common key, and a sample under it. -/
  | synch (s : Synch) {k : Int64} {x : Timed} (hkey : key = some k) (hx : s.report k = .ok x) :
      StepOk table key stack (.synch s) ⟨.synch s, stack.push x, []⟩
  /-- There are operands enough, and the function can use them. -/
  | function (f : Function) {a : Answer} (hle : f.inputs ≤ stack.size)
      (hcall : f.call (stack.operands.take f.inputs).reverse = .ok a) :
      StepOk table key stack (.function f)
        ⟨.function a.next, Stack.pushAll ⟨stack.operands.drop f.inputs⟩ a.results, a.commands⟩

/-- **A step that succeeds** does what its kind of token does. -/
theorem Token.stepOk {table : VariableTable} {key : Option Int64} {t : Token} {stack : Stack}
    {step : Step} (h : t.step table key stack = .ok step) : StepOk table key stack t step := by
  cases t with
  | constant x =>
      cases h
      exact .constant x
  | reference id =>
      rw [Token.step] at h
      split at h
      · next v hv =>
          cases h
          exact .reference id hv
      · cases h
  | synch s =>
      cases key with
      | none => cases h
      | some k =>
          obtain ⟨x, hx, rfl⟩ := map_eq_ok h
          exact .synch s rfl hx
  | function f =>
      rcases Nat.lt_or_ge stack.size f.inputs with hlt | hle
      · simp only [Token.step, Function.applyTo_of_lt hlt] at h
        cases h
      · simp only [Token.step, Function.applyTo_of_le hle] at h
        obtain ⟨a, hcall, rfl⟩ := map_eq_ok h
        exact .function f hle hcall

/-- A step that succeeds finds the operands that its token declares, leaves the declared number
of results in their place, and changes only what the token remembers. -/
theorem Token.step_ok {table : VariableTable} {key : Option Int64} {t : Token} {stack : Stack}
    {step : Step} (h : t.step table key stack = .ok step) :
    t.inputs ≤ stack.size ∧ step.stack.size = stack.size - t.inputs + t.outputs ∧
      step.token.bare = t.bare := by
  cases Token.stepOk h with
  | constant | reference | synch => exact ⟨Nat.zero_le _, rfl, rfl⟩
  | @function f a hle hcall =>
      obtain ⟨hlen, hbare⟩ := Function.call_ok hcall
      refine ⟨hle, ?_, congrArg Token.function hbare⟩
      rw [Stack.size_pushAll, hlen]
      show (stack.operands.drop f.inputs).length + f.outputs = stack.size - f.inputs + f.outputs
      rw [List.length_drop]
      rfl

/-- A step leaves every token but a function as it is. -/
theorem Token.step_token {table : VariableTable} {key : Option Int64} {t : Token} {stack : Stack}
    {step : Step} (h : t.step table key stack = .ok step) :
    step.token = t ∨ ∃ f g, t = .function f ∧ step.token = .function g := by
  cases Token.stepOk h with
  | constant | reference | synch => exact Or.inl rfl
  | @function f a hle hcall => exact Or.inr ⟨f, a.next, rfl, rfl⟩

/-- Why the step of a token fails. -/
inductive StepFault (table : VariableTable) (stack : Stack) : Token → Fault → Prop where
  /-- There are fewer operands than the function takes. -/
  | underflow (f : Function) (h : stack.size < f.inputs) :
      StepFault table stack (.function f) (.stackUnderflow f.name f.inputs stack.size)
  /-- The function cannot use its operands. -/
  | mismatch (f : Function) {fault : Fault} (h : f.inputs ≤ stack.size)
      (hf : fault.IsMismatch) : StepFault table stack (.function f) fault
  /-- There is no common key, or no sample under it. -/
  | unsynchronized (s : Synch) : StepFault table stack (.synch s) .synchronizationUnavailable
  /-- The table has no variable at the position. -/
  | unknown (id : Nat) (h : table.get? id = none) :
      StepFault table stack (.reference id) (.unknownVariable ("#" ++ Nat.repr id))

/-- A sample is missing in one way only. -/
theorem Synch.report_error {s : Synch} {key : Int64} {fault : Fault}
    (h : s.report key = .error fault) :
    fault = .synchronizationUnavailable ∧ s.buffer.lookup key = none := by
  rw [report] at h
  split at h
  · exact nomatch h
  · next hnone =>
      cases h
      exact ⟨rfl, hnone⟩

/-- **A step that fails** has one of four reasons. -/
theorem Token.step_fault {table : VariableTable} {key : Option Int64} {t : Token} {stack : Stack}
    {fault : Fault} (h : t.step table key stack = .error fault) :
    StepFault table stack t fault := by
  cases t with
  | constant x => exact nomatch h
  | reference id =>
      rw [Token.step] at h
      split at h
      · exact nomatch h
      · next hnone =>
          cases h
          exact .unknown id hnone
  | synch s =>
      cases key with
      | none =>
          cases h
          exact .unsynchronized s
      | some k =>
          obtain ⟨rfl, -⟩ := Synch.report_error (map_eq_error h)
          exact .unsynchronized s
  | function f =>
      rcases Nat.lt_or_ge stack.size f.inputs with hlt | hle
      · simp only [Token.step, Function.applyTo_of_lt hlt] at h
        cases h
        exact .underflow f hlt
      · simp only [Token.step, Function.applyTo_of_le hle] at h
        exact .mismatch f hle
          (Function.call_mismatchOnly f (Function.length_operands hle) fault (map_eq_error h))

/-! ### Walks -/

section Walks

variable {table : VariableTable} {key : Option Int64}

theorem walk_cons_ok {t : Token} {ts : List Token} {stack : Stack} {step : Step}
    (h : t.step table key stack = .ok step) :
    walk table key (t :: ts) stack =
      ⟨step.token :: (walk table key ts step.stack).tokens,
        (walk table key ts step.stack).reached + 1,
        step.commands ++ (walk table key ts step.stack).commands,
        (walk table key ts step.stack).outcome⟩ := by
  rw [walk, h]

theorem walk_cons_error {t : Token} {ts : List Token} {stack : Stack} {fault : Fault}
    (h : t.step table key stack = .error fault) :
    walk table key (t :: ts) stack = ⟨t :: ts, 0, [], .error fault⟩ := by
  rw [walk, h]

/-- A walk changes of the tokens only what they remember. -/
@[simp] theorem map_bare_walk (tokens : List Token) (stack : Stack) :
    (walk table key tokens stack).tokens.map Token.bare = tokens.map Token.bare := by
  induction tokens generalizing stack with
  | nil => rfl
  | cons t ts ih =>
      cases h : t.step table key stack with
      | error fault => rw [walk_cons_error h]
      | ok step =>
          rw [walk_cons_ok h, List.map_cons, List.map_cons, ih, (Token.step_ok h).2.2]

/-- A walk over tokens one after the other goes on where the first part ended. -/
theorem walk_append {front back : List Token} {stack below : Stack}
    (h : (walk table key front stack).outcome = .ok below) :
    walk table key (front ++ back) stack =
      ⟨(walk table key front stack).tokens ++ (walk table key back below).tokens,
        front.length + (walk table key back below).reached,
        (walk table key front stack).commands ++ (walk table key back below).commands,
        (walk table key back below).outcome⟩ := by
  induction front generalizing stack with
  | nil =>
      cases h
      simp [walk]
  | cons t ts ih =>
      cases hstep : t.step table key stack with
      | error fault =>
          rw [walk_cons_error hstep] at h
          cases h
      | ok step =>
          rw [walk_cons_ok hstep] at h ⊢
          rw [List.cons_append, walk_cons_ok hstep, ih h]
          simp only [List.cons_append, List.append_assoc, List.length_cons]
          congr 1
          omega

/-- A walk that fails has a token whose step fails, behind tokens that are walked. -/
theorem exists_failing_step {tokens : List Token} {stack : Stack} {fault : Fault}
    (h : (walk table key tokens stack).outcome = .error fault) :
    ∃ front t back below, tokens = front ++ t :: back ∧
      (walk table key front stack).outcome = .ok below ∧
      t.step table key below = .error fault := by
  induction tokens generalizing stack with
  | nil => exact nomatch h
  | cons t ts ih =>
      cases hstep : t.step table key stack with
      | error other =>
          rw [walk_cons_error hstep] at h
          cases h
          exact ⟨[], t, ts, stack, rfl, rfl, hstep⟩
      | ok step =>
          rw [walk_cons_ok hstep] at h
          obtain ⟨front, u, back, below, rfl, hfront, hu⟩ := ih h
          refine ⟨t :: front, u, back, below, rfl, ?_, hu⟩
          rw [walk_cons_ok hstep]
          exact hfront

/-- **A walk that fails** comes to a stop at one token: those in front of it are walked, its
own step fails, and it and those behind it stay. -/
theorem walk_fault {tokens : List Token} {stack : Stack} {fault : Fault}
    (h : (walk table key tokens stack).outcome = .error fault) :
    ∃ front t back below, tokens = front ++ t :: back ∧
      (walk table key front stack).outcome = .ok below ∧
      t.step table key below = .error fault ∧
      walk table key tokens stack =
        ⟨(walk table key front stack).tokens ++ t :: back, front.length,
          (walk table key front stack).commands, .error fault⟩ := by
  obtain ⟨front, t, back, below, rfl, hfront, hstep⟩ := exists_failing_step h
  refine ⟨front, t, back, below, rfl, hfront, hstep, ?_⟩
  rw [walk_append hfront, walk_cons_error hstep, Nat.add_zero, List.append_nil]

/-- A walk that succeeds has every synchronized variable report under the common key. -/
theorem report_of_walk_ok {tokens : List Token} {stack final : Stack}
    (h : (walk table key tokens stack).outcome = .ok final) {s : Synch}
    (hs : Token.synch s ∈ tokens) : ∃ k x, key = some k ∧ s.report k = .ok x := by
  induction tokens generalizing stack with
  | nil => exact nomatch hs
  | cons t ts ih =>
      cases hstep : t.step table key stack with
      | error fault =>
          rw [walk_cons_error hstep] at h
          exact nomatch h
      | ok step =>
          rw [walk_cons_ok hstep] at h
          rcases List.mem_cons.1 hs with rfl | hs
          · cases key with
            | none => exact nomatch hstep
            | some k =>
                obtain ⟨x, hx, -⟩ := map_eq_ok hstep
                exact ⟨k, x, rfl, hx⟩
          · exact ih h hs

/-- A step that fails for lack of a synchronized sample is that of a synchronized variable
without a sample under the common key. -/
theorem synch_of_step_unavailable {t : Token} {stack : Stack}
    (h : t.step table key stack = .error .synchronizationUnavailable) :
    ∃ s, t = .synch s ∧ ∀ k, key = some k → s.buffer.lookup k = none := by
  cases Token.step_fault h with
  | mismatch f hle hf =>
      obtain ⟨_, _, _, hmismatch⟩ := hf
      exact nomatch hmismatch
  | unsynchronized s =>
      refine ⟨s, rfl, fun k hk => ?_⟩
      subst hk
      exact (Synch.report_error (map_eq_error h)).2

/-- The tokens that a walk has got past are walked by themselves. -/
theorem exists_walk_take {tokens : List Token} {stack : Stack} {n : Nat}
    (h : n ≤ (walk table key tokens stack).reached) :
    ∃ below, (walk table key (tokens.take n) stack).outcome = .ok below := by
  induction tokens generalizing stack n with
  | nil =>
      rw [List.take_nil]
      exact ⟨stack, rfl⟩
  | cons t ts ih =>
      cases n with
      | zero => exact ⟨stack, rfl⟩
      | succ n =>
          cases hstep : t.step table key stack with
          | error fault =>
              rw [walk_cons_error hstep] at h
              exact absurd h (Nat.not_succ_le_zero n)
          | ok step =>
              rw [walk_cons_ok hstep] at h
              rw [List.take_succ_cons, walk_cons_ok hstep]
              exact ih (Nat.le_of_succ_le_succ h)

/-- One token more: its step on what the tokens in front of it leave. -/
theorem walk_take_succ {tokens : List Token} {stack below : Stack} {n : Nat} {t : Token}
    {step : Step} (hbelow : (walk table key (tokens.take n) stack).outcome = .ok below)
    (ht : tokens[n]? = some t) (hstep : t.step table key below = .ok step) :
    walk table key (tokens.take (n + 1)) stack =
      ⟨(walk table key (tokens.take n) stack).tokens ++ [step.token], (tokens.take n).length + 1,
        (walk table key (tokens.take n) stack).commands ++ step.commands, .ok step.stack⟩ := by
  rw [List.take_add_one, ht, Option.toList_some, walk_append hbelow, walk_cons_ok hstep]
  simp only [walk, Nat.zero_add, List.append_nil]

/-- A token that a walk has got past has taken its step. -/
theorem exists_step_of_lt_reached {tokens : List Token} {stack : Stack} {n : Nat} {t : Token}
    (h : n < (walk table key tokens stack).reached) (ht : tokens[n]? = some t) :
    ∃ below step, (walk table key (tokens.take n) stack).outcome = .ok below ∧
      t.step table key below = .ok step := by
  obtain ⟨below, hbelow⟩ := exists_walk_take (Nat.le_of_lt h)
  obtain ⟨after, hafter⟩ := exists_walk_take (n := n + 1) h
  cases hstep : t.step table key below with
  | ok step => exact ⟨below, step, hbelow, hstep⟩
  | error fault =>
      rw [List.take_add_one, ht, Option.toList_some, walk_append hbelow,
        walk_cons_error hstep] at hafter
      exact nomatch hafter

/-- A walk leaves a synchronized variable where it is and as it is. -/
theorem synch_of_walk {tokens : List Token} {i : Nat} {s : Synch} (h : tokens[i]? = some (.synch s))
    (stack : Stack) : (walk table key tokens stack).tokens[i]? = some (.synch s) := by
  induction tokens generalizing i stack with
  | nil => exact nomatch h
  | cons t ts ih =>
      cases hstep : t.step table key stack with
      | error fault =>
          rw [walk_cons_error hstep]
          exact h
      | ok step =>
          rw [walk_cons_ok hstep]
          cases i with
          | zero =>
              cases h
              rcases Token.step_token hstep with hsame | ⟨f, g, hf, -⟩
              · rw [hsame]
                rfl
              · exact nomatch hf
          | succ i => exact ih h step.stack

end Walks

end Telemetry
