import Telemetry.Link

/-!
# Passes

One evaluation of a linked sequence of tokens. Every synchronized variable first
takes the sample of its variable, which settles the common key; then the tokens
are walked from left to right over an operand stack. A token that fails ends the
pass: it and the tokens behind it stay as they were, and the commands given so
far stand. Once the last synchronized variable has reported, all of them forget
the samples up to the common key.
-/

namespace Telemetry

/-- A token after its step, what lies on the stack, and commands for the host. -/
structure Step where
  token : Token
  stack : Stack
  commands : List Command := []

/-- The step of one token, given the common key. -/
def Token.step (table : VariableTable) (key : Option Int64) (t : Token) (stack : Stack) :
    Outcome Step :=
  match t with
  | .constant x => .ok ⟨t, stack.push x, []⟩
  | .reference id =>
    match table.get? id with
    | some v => .ok ⟨t, stack.push v.sample, []⟩
    | none => .error (.unknownVariable ("#" ++ Nat.repr id))
  | .synch s =>
    match key with
    | some k => (s.report k).map fun x => ⟨t, stack.push x, []⟩
    | none => .error .synchronizationUnavailable
  | .function f =>
    let (answer, below) := f.applyTo stack
    answer.map fun a => ⟨.function a.next, below.pushAll a.results, a.commands⟩

/-- What a walk over tokens leaves. -/
structure Walk where
  /-- The tokens after the walk. -/
  tokens : List Token
  /-- The number of tokens whose step succeeded. -/
  reached : Nat
  commands : List Command
  outcome : Outcome Stack

/-- Walks tokens from left to right. -/
def walk (table : VariableTable) (key : Option Int64) : List Token → Stack → Walk
  | [], stack => ⟨[], 0, [], .ok stack⟩
  | t :: ts, stack =>
    match t.step table key stack with
    | .error fault => ⟨t :: ts, 0, [], .error fault⟩
    | .ok step =>
      let rest := walk table key ts step.stack
      ⟨step.token :: rest.tokens, rest.reached + 1, step.commands ++ rest.commands, rest.outcome⟩

/-- Every synchronized variable takes the sample of its variable. -/
def ingest (table : VariableTable) (tokens : List Token) : List Token :=
  tokens.map fun t =>
    match t with
    | .synch s => .synch ((table.get? s.source).elim s s.observe)
    | t => t

/-- The synchronized variables among tokens. -/
def synchs (tokens : List Token) : List Synch :=
  tokens.filterMap fun t =>
    match t with
    | .synch s => some s
    | _ => none

/-- The least of keys. -/
def leastKey? : List Int64 → Option Int64
  | [] => none
  | key :: keys => some (keys.foldl (fun a b => if b < a then b else a) key)

/-- The oldest among the newest keys, if there is a synchronized variable and none
of them is empty. -/
def commonKey? (tokens : List Token) : Option Int64 :=
  ((synchs tokens).mapM Synch.newestKey?).bind leastKey?

/-- Every synchronized variable forgets the keys up to and including `key`. -/
def trimAll (key : Int64) (tokens : List Token) : List Token :=
  tokens.map fun t =>
    match t with
    | .synch s => .synch (s.trimThrough key)
    | t => t

/-- What a pass leaves. -/
structure Pass where
  tokens : List Token
  commands : List Command
  outcome : Outcome Timed

/-- Runs one pass over linked tokens, `last` being the position of the last
synchronized variable. -/
def Pass.run (table : VariableTable) (last : Option Nat) (tokens : List Token) : Pass :=
  match last with
  | none =>
    let w := walk table none tokens {}
    ⟨w.tokens, w.commands, w.outcome.bind Stack.result⟩
  | some last =>
    let fed := ingest table tokens
    let key := commonKey? fed
    let w := walk table key fed {}
    let kept :=
      match key with
      | some key => if last < w.reached then trimAll key w.tokens else w.tokens
      | none => w.tokens
    ⟨kept, w.commands, w.outcome.bind Stack.result⟩

/-- A walk keeps the number of tokens. -/
theorem length_walk (table : VariableTable) (key : Option Int64) (tokens : List Token)
    (stack : Stack) : (walk table key tokens stack).tokens.length = tokens.length := by
  induction tokens generalizing stack with
  | nil => rfl
  | cons t ts ih =>
    rw [walk]
    split
    · rfl
    · simp only [List.length_cons, ih]

/-- A walk that succeeds reaches the end of the tokens. -/
theorem reached_of_walk_ok {table : VariableTable} {key : Option Int64} {tokens : List Token}
    {stack final : Stack} (h : (walk table key tokens stack).outcome = .ok final) :
    (walk table key tokens stack).reached = tokens.length := by
  induction tokens generalizing stack with
  | nil => rfl
  | cons t ts ih =>
    rw [walk] at h ⊢
    split at h
    · exact nomatch h
    · simp only [List.length_cons, ih h]

end Telemetry
