import Telemetry.Proofs.Linking
import Telemetry.Proofs.Passes

/-!
# Functions in place

The functions as a machine with one memory would run them.  A function takes off the one operand
stack what it needs, changes what it remembers and calls the host at the place where its own
order of work says so, and a fault undoes nothing of what has been done by then.  Every function
makes its changes behind the last of its checks, so what it leaves is what its answer says, and
where it faults, it and the host are as they were (`InPlace.function_eq`).
-/

namespace Telemetry

/-- A computation that can fault and changes a memory as it goes.  A fault undoes nothing. -/
def InPlace (σ α : Type) : Type := σ → Outcome α × σ

namespace InPlace

instance : Monad (InPlace σ) where
  pure a := fun s => (.ok a, s)
  bind m f := fun s =>
    match m s with
    | (.ok a, s) => f a s
    | (.error fault, s) => (.error fault, s)

instance : MonadLift Outcome (InPlace σ) := ⟨fun o s => (o, s)⟩

/-- Ends a computation. -/
def fail (fault : Fault) : InPlace σ α := fun s => (.error fault, s)

/-- The memory as it is. -/
def look : InPlace σ σ := fun s => (.ok s, s)

/-- Changes the memory. -/
def change (f : σ → σ) : InPlace σ Unit := fun s => (.ok (), f s)

@[simp] theorem pure_eq (a : α) (s : σ) : (pure a : InPlace σ α) s = (.ok a, s) := rfl

@[simp] theorem bind_eq (m : InPlace σ α) (f : α → InPlace σ β) (s : σ) :
    (m >>= f) s =
      match m s with
      | (.ok a, s) => f a s
      | (.error fault, s) => (.error fault, s) := rfl

@[simp] theorem lift_eq (o : Outcome α) (s : σ) : (liftM o : InPlace σ α) s = (o, s) := rfl

@[simp] theorem look_eq (s : σ) : look s = (.ok s, s) := rfl

@[simp] theorem change_eq (f : σ → σ) (s : σ) : change f s = (.ok (), f s) := rfl

/-! ### Functions -/

/-- What a function works on: its own memory, the operands and the host. -/
structure Bench (μ σ : Type) where
  own : μ
  stack : Stack
  host : σ

section Functions

variable {μ σ : Type}

/-- Takes the operand on top. -/
def popOne (function : String) : InPlace (Bench μ σ) Timed := fun b =>
  match b.stack.operands with
  | x :: below => (.ok x, { b with stack := ⟨below⟩ })
  | [] => (.error (.stackUnderflow function 1 0), b)

/-- Takes two operands, the older one first. -/
def popTwo (function : String) : InPlace (Bench μ σ) (Timed × Timed) := fun b =>
  match b.stack.operands with
  | y :: x :: below => (.ok (x, y), { b with stack := ⟨below⟩ })
  | few => (.error (.stackUnderflow function 2 few.length), b)

/-- Takes three operands, the oldest one first. -/
def popThree (function : String) : InPlace (Bench μ σ) (Timed × Timed × Timed) := fun b =>
  match b.stack.operands with
  | z :: y :: x :: below => (.ok (x, y, z), { b with stack := ⟨below⟩ })
  | few => (.error (.stackUnderflow function 3 few.length), b)

/-- Leaves a value. -/
def push (x : Timed) : InPlace (Bench μ σ) Unit :=
  change fun b => { b with stack := b.stack.push x }

/-- Puts something else into the function's memory. -/
def remember (own : μ) : InPlace (Bench μ σ) Unit := change fun b => { b with own := own }

/-- A stateless operator. -/
def rule (function : String) : Rule → InPlace (Bench μ σ) Unit
  | .one f => do
    let x ← popOne function
    let v ← f x.value
    push ⟨v, x.time⟩
  | .two f => do
    let (x, y) ← popTwo function
    let v ← f x.value y.value
    push ⟨v, newest [x, y]⟩
  | .three f => do
    let (x, y, z) ← popThree function
    let v ← f x.value y.value z.value
    push ⟨v, newest [x, y, z]⟩
  | .ofTime f => do
    let x ← popOne function
    push ⟨f x.time, x.time⟩

/-- Lets the history of a windowed statistic take a sample under a control operand. -/
def retain (a : Aggregate) (s : Sample) (control : Value) : InPlace (Bench Aggregate σ) Unit :=
  match a.policy with
  | .count => do
    let count ← control.toWord a.name
    remember { a with history := a.history.slideCount s count }
  | .age => do
    let range ← control.toWord a.name
    remember { a with history := a.history.slideAge a.statistic.boundary s range }
  | .period => do
    let code ← control.toWord a.name
    let unit ← periodOfMode a.name code
    remember { a with history := a.history.resetPeriod s unit }
  | .flag => do
    let flag ← control.toBool a.name
    remember { a with history := a.history.resetFlag s flag }

/-- A windowed statistic.  It is taken of the history as it is when the sample is in. -/
def aggregate : InPlace (Bench Aggregate σ) Unit := do
  let a := (← look).own
  let (value, control) ← popTwo a.name
  let x ← value.value.toFloat a.name
  retain a ⟨value.time, x⟩ control.value
  let a := (← look).own
  push ⟨.float (a.history.evaluate a.statistic), newest [value, control]⟩

/-- A running calculation. -/
def incremental : InPlace (Bench Incremental σ) Unit := do
  let i := (← look).own
  match i with
  | .integrate state => do
    let (value, control) ← popTwo i.name
    let x ← value.value.toFloat i.name
    let factor ← Incremental.factor i.name control.value
    let (total, state) := state.update ⟨value.time, x⟩ factor
    remember (.integrate state)
    push ⟨.float total, newest [value, control]⟩
  | .rateOfChange state => do
    let value ← popOne i.name
    let x ← value.value.toFloat i.name
    let (rate, state) := state.update ⟨value.time, x⟩
    remember (.rateOfChange state)
    push ⟨.float rate, value.time⟩
  | .delta state => do
    let value ← popOne i.name
    let x ← value.value.toFloat i.name
    let (change, state) := state.update x
    remember (.delta state)
    push ⟨.float change, value.time⟩

variable (obey : σ → Command → σ)

/-- Gives the host a command. -/
def tell (c : Command) : InPlace (Bench μ σ) Unit :=
  change fun b => { b with host := obey b.host c }

/-- Gives the host a command with the one operand, which has to be an integer. -/
def tellInteger (function : String) (f : Int64 → Command) : InPlace (Bench μ σ) Unit := do
  let x ← popOne function
  let n ← Directive.integral function x.value
  tell obey (f n)

/-- A directive. -/
def directive (d : Directive) : InPlace (Bench μ σ) Unit :=
  match d with
  | .startAtRecord => do
    let (record, year) ← popTwo d.name
    let record ← Directive.integral d.name record.value
    let year ← Directive.integral d.name year.value
    tell obey (.start (.atRecord record year))
  | .startAtTime => do
    let x ← popOne d.name
    match x.value with
    | .date t => tell obey (.start (.atTime t))
    | v => fail (.typeMismatch d.name "Date" v.kindName)
  | .startAtNewest => tell obey (.start .atNewest)
  | .startAfterNewest => tell obey (.start .afterNewest)
  | .startRelativeToNewest => tellInteger obey d.name fun n => .start (.relativeToNewest n)
  | .startAtOffsetFromNewest => tellInteger obey d.name fun n => .start (.atOffsetFromNewest n)
  | .orderOption => tellInteger obey d.name .order
  | .reportOffset => tellInteger obey d.name .reportOffset

/-- Lets a part of a function's memory work. -/
def within (wrap : ν → μ) (own : ν) (m : InPlace (Bench ν σ) α) : InPlace (Bench μ σ) α :=
  fun b =>
    let (outcome, b) := m ⟨own, b.stack, b.host⟩
    (outcome, ⟨wrap b.own, b.stack, b.host⟩)

/-- A function. -/
def function : InPlace (Bench Function σ) Unit := do
  match (← look).own with
  | .operator op => rule op.name op.rule
  | .aggregate a => within Function.aggregate a aggregate
  | .incremental i => within Function.incremental i incremental
  | .secondName => do
    let (operand, label) ← popTwo Function.secondName.name
    if label.value.isText then push operand
    else fail (.typeMismatch Function.secondName.name "alias name text" label.value.kindName)
  | .valueSynch => do
    let operand ← popOne Function.valueSynch.name
    push operand
  | .directive d => directive obey d

/-! ### What a function does in place -/

@[simp] theorem ok_bind (a : α) (f : α → Outcome β) : (Except.ok a >>= f : Outcome β) = f a := rfl

/-- What the bench is after an answer: the function in its next state, its results on what was
left of the operands, and the host after its commands.  A fault leaves the function and the host
as they were. -/
def settle (f : Function) (host : σ) : Outcome Answer × Stack → Outcome Unit × Bench Function σ
  | (.ok a, below) => (.ok (), ⟨a.next, below.pushAll a.results, a.commands.foldl obey host⟩)
  | (.error fault, below) => (.error fault, ⟨f, below, host⟩)

theorem retain_eq (a : Aggregate) (s : Sample) (control : Value) (stack : Stack) (host : σ) :
    retain a s control ⟨a, stack, host⟩ =
      match a.retain s control with
      | .ok h => (.ok (), ⟨{ a with history := h }, stack, host⟩)
      | .error fault => (.error fault, ⟨a, stack, host⟩) := by
  rw [retain, Aggregate.retain]
  cases a.policy with
  | count | age =>
      dsimp only
      cases control.toWord a.name <;> rfl
  | period =>
      dsimp only
      cases control.toWord a.name with
      | error fault => rfl
      | ok code =>
          simp only [bind_eq, lift_eq, ok_bind]
          cases periodOfMode a.name code <;> rfl
  | flag =>
      dsimp only
      cases control.toBool a.name <;> rfl

theorem aggregate_eq (a : Aggregate) (value control : Timed) (below : List Timed) (host : σ) :
    aggregate ⟨a, ⟨control :: value :: below⟩, host⟩ =
      match a.apply value control with
      | .ok (r, next) => (.ok (), ⟨next, ⟨r :: below⟩, host⟩)
      | .error fault => (.error fault, ⟨a, ⟨below⟩, host⟩) := by
  rw [Aggregate.apply]
  simp only [aggregate, bind_eq, look_eq, popTwo, lift_eq]
  cases value.value.toFloat a.name with
  | error fault => rfl
  | ok x =>
      simp only [retain_eq, ok_bind]
      cases a.retain ⟨value.time, x⟩ control.value <;> rfl

/-- A running calculation on as many operands as it takes. -/
theorem incremental_eq (i : Incremental) {operands : List Timed} (h : operands.length = i.takes)
    (below : List Timed) (host : σ) :
    incremental ⟨i, ⟨operands.reverse ++ below⟩, host⟩ =
      match i.apply operands with
      | .ok (r, next) => (.ok (), ⟨next, ⟨r :: below⟩, host⟩)
      | .error fault => (.error fault, ⟨i, ⟨below⟩, host⟩) := by
  cases i with
  | integrate state =>
      obtain ⟨value, control, rfl⟩ := List.length_eq_two.1 h
      simp only [incremental, bind_eq, look_eq, lift_eq, List.reverse_cons, List.reverse_nil,
        List.nil_append, List.cons_append, popTwo, Incremental.apply]
      cases value.value.toFloat (Incremental.integrate state).name with
      | error fault => rfl
      | ok x =>
          simp only [ok_bind]
          cases Incremental.factor (Incremental.integrate state).name control.value <;> rfl
  | rateOfChange state =>
      obtain ⟨value, rfl⟩ := List.length_eq_one_iff.1 h
      simp only [incremental, bind_eq, look_eq, lift_eq, List.reverse_cons, List.reverse_nil,
        List.nil_append, List.cons_append, popOne, Incremental.apply, newest_singleton]
      cases value.value.toFloat (Incremental.rateOfChange state).name <;> rfl
  | delta state =>
      obtain ⟨value, rfl⟩ := List.length_eq_one_iff.1 h
      simp only [incremental, bind_eq, look_eq, lift_eq, List.reverse_cons, List.reverse_nil,
        List.nil_append, List.cons_append, popOne, Incremental.apply, newest_singleton]
      cases value.value.toFloat (Incremental.delta state).name <;> rfl

section Underflow

variable {own : μ} {stack : Stack} {host : σ} {name : String}

theorem popOne_of_lt (h : stack.size < 1) :
    popOne name ⟨own, stack, host⟩ =
      (.error (.stackUnderflow name 1 stack.size), ⟨own, stack, host⟩) := by
  obtain ⟨operands⟩ := stack
  obtain rfl := List.length_eq_zero_iff.1 (Nat.lt_one_iff.1 h)
  rfl

theorem popTwo_of_lt (h : stack.size < 2) :
    popTwo name ⟨own, stack, host⟩ =
      (.error (.stackUnderflow name 2 stack.size), ⟨own, stack, host⟩) := by
  obtain ⟨operands⟩ := stack
  match operands, h with
  | [], _ | [x], _ => rfl
  | x :: y :: rest, h =>
      simp only [Stack.size, List.length_cons] at h
      omega

theorem popThree_of_lt (h : stack.size < 3) :
    popThree name ⟨own, stack, host⟩ =
      (.error (.stackUnderflow name 3 stack.size), ⟨own, stack, host⟩) := by
  obtain ⟨operands⟩ := stack
  match operands, h with
  | [], _ | [x], _ | [x, y], _ => rfl
  | x :: y :: z :: rest, h =>
      simp only [Stack.size, List.length_cons] at h
      omega

/-- An operator that finds fewer operands than it takes. -/
theorem rule_of_lt {r : Rule} (h : stack.size < r.takes) :
    rule name r ⟨own, stack, host⟩ =
      (.error (.stackUnderflow name r.takes stack.size), ⟨own, stack, host⟩) := by
  cases r with
  | one f | ofTime f =>
      have h : stack.size < 1 := h
      simp only [rule, bind_eq, popOne_of_lt h, Rule.takes]
  | two f =>
      have h : stack.size < 2 := h
      simp only [rule, bind_eq, popTwo_of_lt h, Rule.takes]
  | three f =>
      have h : stack.size < 3 := h
      simp only [rule, bind_eq, popThree_of_lt h, Rule.takes]

/-- A directive that finds fewer operands than it takes. -/
theorem directive_of_lt {d : Directive} (h : stack.size < d.form.takes) :
    directive obey d ⟨own, stack, host⟩ =
      (.error (.stackUnderflow d.name d.form.takes stack.size), ⟨own, stack, host⟩) := by
  cases d with
  | startAtRecord =>
      have h : stack.size < 2 := h
      simp only [directive, bind_eq, popTwo_of_lt h]
      rfl
  | startAtTime =>
      have h : stack.size < 1 := h
      simp only [directive, bind_eq, popOne_of_lt h]
      rfl
  | startAtNewest | startAfterNewest => exact absurd h (Nat.not_lt_zero _)
  | startRelativeToNewest | startAtOffsetFromNewest | orderOption | reportOffset =>
      have h : stack.size < 1 := h
      simp only [directive, tellInteger, bind_eq, popOne_of_lt h]
      rfl

end Underflow

/-- A function that finds fewer operands than it takes changes nothing. -/
theorem function_of_lt {f : Function} {stack : Stack} (h : stack.size < f.inputs) (host : σ) :
    function obey ⟨f, stack, host⟩ =
      (.error (.stackUnderflow f.name f.inputs stack.size), ⟨f, stack, host⟩) := by
  rw [f.inputs_eq_takes] at h ⊢
  cases f with
  | operator op => exact rule_of_lt h
  | directive d => exact directive_of_lt obey h
  | aggregate a =>
      have h : stack.size < 2 := h
      simp only [function, bind_eq, look_eq, within, aggregate, popTwo_of_lt h]
      rfl
  | incremental i =>
      cases i with
      | integrate state =>
          have h : stack.size < 2 := h
          simp only [function, bind_eq, look_eq, within, incremental, popTwo_of_lt h]
          rfl
      | rateOfChange state | delta state =>
          have h : stack.size < 1 := h
          simp only [function, bind_eq, look_eq, within, incremental, popOne_of_lt h]
          rfl
  | secondName =>
      have h : stack.size < 2 := h
      simp only [function, bind_eq, look_eq, popTwo_of_lt h]
      rfl
  | valueSynch =>
      have h : stack.size < 1 := h
      simp only [function, bind_eq, look_eq, popOne_of_lt h]
      rfl

/-- An operator on as many operands as it takes. -/
theorem rule_eq (name : String) (r : Rule) (own : μ) {operands : List Timed}
    (h : operands.length = r.takes) (below : List Timed) (host : σ) :
    rule name r ⟨own, ⟨operands.reverse ++ below⟩, host⟩ =
      match r.apply name operands with
      | .ok x => (.ok (), ⟨own, ⟨x :: below⟩, host⟩)
      | .error fault => (.error fault, ⟨own, ⟨below⟩, host⟩) := by
  cases r with
  | one f =>
      obtain ⟨x, rfl⟩ := List.length_eq_one_iff.1 h
      show rule name (.one f) ⟨own, ⟨x :: below⟩, host⟩ = _
      simp only [rule, bind_eq, lift_eq, popOne, Rule.apply, newest_singleton]
      cases f x.value <;> rfl
  | two f =>
      obtain ⟨x, y, rfl⟩ := List.length_eq_two.1 h
      show rule name (.two f) ⟨own, ⟨y :: x :: below⟩, host⟩ = _
      simp only [rule, bind_eq, lift_eq, popTwo, Rule.apply]
      cases f x.value y.value <;> rfl
  | three f =>
      obtain ⟨x, y, z, rfl⟩ := List.length_eq_three.1 h
      show rule name (.three f) ⟨own, ⟨z :: y :: x :: below⟩, host⟩ = _
      simp only [rule, bind_eq, lift_eq, popThree, Rule.apply]
      cases f x.value y.value z.value <;> rfl
  | ofTime f =>
      obtain ⟨x, rfl⟩ := List.length_eq_one_iff.1 h
      rfl

/-- A directive on as many operands as it takes. -/
theorem directive_eq (d : Directive) (own : μ) {operands : List Timed}
    (h : operands.length = d.form.takes) (below : List Timed) (host : σ) :
    directive obey d ⟨own, ⟨operands.reverse ++ below⟩, host⟩ =
      match d.form.apply d.name operands with
      | .ok c => (.ok (), ⟨own, ⟨below⟩, obey host c⟩)
      | .error fault => (.error fault, ⟨own, ⟨below⟩, host⟩) := by
  cases d with
  | startAtRecord =>
      obtain ⟨record, year, rfl⟩ := List.length_eq_two.1 h
      show directive obey .startAtRecord ⟨own, ⟨year :: record :: below⟩, host⟩ = _
      simp only [directive, bind_eq, lift_eq, popTwo, Directive.form, Directive.Form.apply]
      cases Directive.integral Directive.startAtRecord.name record.value with
      | error fault => rfl
      | ok n =>
          simp only [ok_bind]
          cases Directive.integral Directive.startAtRecord.name year.value <;> rfl
  | startAtTime =>
      obtain ⟨⟨v, time⟩, rfl⟩ := List.length_eq_one_iff.1 h
      cases v <;> rfl
  | startAtNewest | startAfterNewest =>
      obtain rfl := List.length_eq_zero_iff.1 h
      rfl
  | startRelativeToNewest | startAtOffsetFromNewest | orderOption | reportOffset =>
      obtain ⟨x, rfl⟩ := List.length_eq_one_iff.1 h
      simp only [directive, tellInteger, bind_eq, lift_eq, popOne, List.reverse_singleton,
        List.singleton_append, Directive.form, Directive.withInteger, Directive.Form.apply]
      cases Directive.integral _ x.value <;> rfl

/-- A function on as many operands as it takes. -/
theorem function_of_operands (f : Function) {operands : List Timed}
    (h : operands.length = f.inputs) (below : List Timed) (host : σ) :
    function obey ⟨f, ⟨operands.reverse ++ below⟩, host⟩ =
      settle obey f host (f.call operands, ⟨below⟩) := by
  rw [f.inputs_eq_takes] at h
  cases f with
  | operator op =>
      simp only [function, bind_eq, look_eq, rule_eq op.name op.rule _ h, Function.call]
      cases op.rule.apply op.name operands <;> rfl
  | directive d =>
      simp only [function, bind_eq, look_eq, directive_eq obey d _ h, Function.call]
      cases d.form.apply d.name operands <;> rfl
  | aggregate a =>
      obtain ⟨value, control, rfl⟩ := List.length_eq_two.1 h
      show within Function.aggregate a aggregate ⟨_, ⟨control :: value :: below⟩, host⟩ = _
      simp only [within, aggregate_eq, Function.call]
      cases a.apply value control <;> rfl
  | incremental i =>
      simp only [function, bind_eq, look_eq, within, incremental_eq i h, Function.call]
      cases i.apply operands <;> rfl
  | secondName =>
      obtain ⟨operand, label, rfl⟩ := List.length_eq_two.1 h
      simp only [function, bind_eq, look_eq, popTwo, List.reverse_cons, List.reverse_nil,
        List.nil_append, List.cons_append, Function.call]
      cases label.value.isText <;> rfl
  | valueSynch =>
      obtain ⟨operand, rfl⟩ := List.length_eq_one_iff.1 h
      rfl

/-- **A function makes its changes behind its last check.**  In place it does what its answer
says, and where it faults, it and the host are as they were. -/
theorem function_eq (f : Function) (stack : Stack) (host : σ) :
    function obey ⟨f, stack, host⟩ = settle obey f host (f.applyTo stack) := by
  rcases Nat.lt_or_ge stack.size f.inputs with hlt | hle
  · rw [function_of_lt obey hlt, Function.applyTo_of_lt hlt]
    rfl
  · have hstack : stack = ⟨(stack.operands.take f.inputs).reverse.reverse ++
        stack.operands.drop f.inputs⟩ := by
      rw [List.reverse_reverse, List.take_append_drop]
    rw [Function.applyTo_of_le hle]
    conv => lhs; rw [hstack]
    exact function_of_operands obey f (Function.length_operands hle) _ host

end Functions

end InPlace

end Telemetry
