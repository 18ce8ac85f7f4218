import Telemetry.Proofs.InPlace
import Telemetry.Proofs.Linking

/-!
# Passes in place

A whole pass as one machine with one memory would run it.  It goes through the positions of the
sequence, looks up what stands there, lets it work on the one stack and puts functions back where
they were; as soon as the last synchronized variable has reported, in the middle of the walk, all
of them forget the samples through the common key (`InPlace.pass`).  Nothing is undone when a
token fails.  The result is that of a pass that hands on states and forgets at its end
(`Expression.evaluateInPlace_eq`), since no synchronized variable stands behind the last one.
-/

namespace Telemetry

namespace InPlace

/-- What a pass works on. -/
structure Arena (σ : Type) where
  tokens : List Token
  stack : Stack
  host : σ

variable {σ : Type}

/-- Leaves a value on the stack of a pass. -/
def leave (x : Timed) : InPlace (Arena σ) Unit := change fun a => { a with stack := a.stack.push x }

section Machine

variable (table : VariableTable) (key : Option Int64) (last : Option Nat) (obey : σ → Command → σ)

/-- A function works on the stack and for the host, and goes back to its position. -/
def work (index : Nat) (f : Function) : InPlace (Arena σ) Unit := fun a =>
  let (outcome, b) := function obey ⟨f, a.stack, a.host⟩
  (outcome, ⟨a.tokens.set index (.function b.own), b.stack, b.host⟩)

/-- The token at a position does its part. -/
def token (index : Nat) : Token → InPlace (Arena σ) Unit
  | .constant x => leave x
  | .reference id =>
    match table.get? id with
    | some v => leave v.sample
    | none => fail (.unknownVariable ("#" ++ Nat.repr id))
  | .synch s =>
    match key with
    | some k => do
      let x ← s.report k
      leave x
      if last = some index then change fun a => { a with tokens := trimAll k a.tokens }
    | none => fail .synchronizationUnavailable
  | .function f => work obey index f

/-- Goes through a number of positions from one on. -/
def walkFrom : Nat → Nat → InPlace (Arena σ) Unit
  | 0, _ => pure ()
  | count + 1, index => do
    match (← look).tokens[index]? with
    | some t =>
      token table key last obey index t
      walkFrom count (index + 1)
    | none => pure ()

/-- A pass, from an empty stack. -/
def pass : InPlace (Arena σ) Timed := do
  change fun a => { a with stack := {} }
  if last.isSome then change fun a => { a with tokens := ingest table a.tokens }
  let tokens := (← look).tokens
  walkFrom table (last.bind fun _ => commonKey? tokens) last obey tokens.length 0
  (← look).stack.result

end Machine

/-! ### One token -/

section Token

variable {table : VariableTable} {key : Option Int64} {last : Option Nat} {t : Token}
  {stack : Stack} {step : Step} {fault : Fault} (obey : σ → Command → σ) {done : List Token}
  (todo : List Token) (host : σ)

theorem set_length_append (done todo : List Token) (t u : Token) :
    (done ++ t :: todo).set done.length u = done ++ u :: todo := by
  rw [List.set_append_right _ _ (Nat.le_refl _), Nat.sub_self]
  rfl

/-- A token other than the last synchronized variable does what its step says. -/
theorem token_ok (h : t.step table key stack = .ok step)
    (hlast : t.isSynch = true → last ≠ some done.length) :
    token table key last obey done.length t ⟨done ++ t :: todo, stack, host⟩ =
      (.ok (), ⟨done ++ step.token :: todo, step.stack, step.commands.foldl obey host⟩) := by
  cases Token.stepOk h with
  | constant x => rfl
  | @reference id v hv =>
      rw [token, hv]
      rfl
  | @synch s k x hkey hx =>
      subst hkey
      simp only [token, bind_eq, lift_eq, hx, leave, change_eq, if_neg (hlast rfl), pure_eq]
      rfl
  | @function f a hle hcall =>
      simp only [token, work, function_eq, Function.applyTo_of_le hle, hcall, settle,
        set_length_append]

/-- The last synchronized variable lets all of them forget. -/
theorem token_last {s : Synch} {k : Int64}
    (h : (Token.synch s).step table (some k) stack = .ok step) (hlast : last = some done.length)
    (tokens : List Token) :
    token table (some k) last obey done.length (.synch s) ⟨tokens, stack, host⟩ =
      (.ok (), ⟨trimAll k tokens, step.stack, host⟩) := by
  obtain ⟨x, hx, rfl⟩ := map_eq_ok h
  simp only [token, bind_eq, lift_eq, hx, leave, change_eq, if_pos hlast]

/-- A token that fails leaves the tokens and the host alone. -/
theorem token_error (last : Option Nat) (done : List Token)
    (h : t.step table key stack = .error fault) :
    ∃ left, token table key last obey done.length t ⟨done ++ t :: todo, stack, host⟩ =
      (.error fault, ⟨done ++ t :: todo, left, host⟩) := by
  cases t with
  | constant x => cases h
  | reference id =>
      rw [Token.step] at h
      rw [token]
      split at h
      · cases h
      · next hnone =>
          cases h
          rw [hnone]
          exact ⟨stack, rfl⟩
  | synch s =>
      cases key with
      | none =>
          cases h
          exact ⟨stack, rfl⟩
      | some k =>
          have hreport := map_eq_error h
          refine ⟨stack, ?_⟩
          simp only [token, bind_eq, lift_eq, hreport]
  | function f =>
      have hanswer : f.applyTo stack = (.error fault, (f.applyTo stack).2) :=
        Prod.ext (map_eq_error h) rfl
      refine ⟨(f.applyTo stack).2, ?_⟩
      simp only [token, work, function_eq]
      rw [hanswer]
      simp only [settle, set_length_append]

end Token

/-! ### The walk -/

/-- What a run in place has come to: tokens, host, and the stack if no token has failed. -/
inductive ComesTo : Outcome Stack → List Token → σ → Outcome Unit × Arena σ → Prop where
  | ok (stack : Stack) (tokens : List Token) (host : σ) :
      ComesTo (.ok stack) tokens host (.ok (), ⟨tokens, stack, host⟩)
  | error (fault : Fault) (stack : Stack) (tokens : List Token) (host : σ) :
      ComesTo (.error fault) tokens host (.error fault, ⟨tokens, stack, host⟩)

section Walk

variable (table : VariableTable) (key : Option Int64) {last : Option Nat} (obey : σ → Command → σ)

theorem walkFrom_cons (last : Option Nat) (done todo : List Token) (t : Token) (stack : Stack)
    (host : σ) :
    walkFrom table key last obey (todo.length + 1) done.length ⟨done ++ t :: todo, stack, host⟩ =
      match token table key last obey done.length t ⟨done ++ t :: todo, stack, host⟩ with
      | (.ok _, a) => walkFrom table key last obey todo.length (done.length + 1) a
      | (.error fault, a) => (.error fault, a) := by
  have hat : (done ++ t :: todo)[done.length]? = some t := by
    rw [List.getElem?_append_right (Nat.le_refl _), Nat.sub_self]
    rfl
  simp only [walkFrom, bind_eq, look_eq, hat]
  rcases token table key last obey done.length t _ with ⟨_ | _, _⟩ <;> rfl

theorem isSynch_of_lastSynch?_none {t : Token} {ts : List Token}
    (h : Link.lastSynch? (t :: ts) = none) :
    t.isSynch = false ∧ Link.lastSynch? ts = none := by
  rw [Link.lastSynch?] at h
  split at h
  · cases h
  · next hrest =>
      split at h
      · cases h
      · next hsynch => exact ⟨Bool.eq_false_iff.2 hsynch, hrest⟩

/-- Behind the last synchronized variable a walk in place is the walk. -/
theorem walkFrom_of_no_synch {todo : List Token} (hnone : Link.lastSynch? todo = none)
    (last : Option Nat) (done : List Token) (stack : Stack) (host : σ) :
    ComesTo (walk table key todo stack).outcome (done ++ (walk table key todo stack).tokens)
      ((walk table key todo stack).commands.foldl obey host)
      (walkFrom table key last obey todo.length done.length ⟨done ++ todo, stack, host⟩) := by
  induction todo generalizing done stack host with
  | nil => exact .ok stack _ host
  | cons t ts ih =>
      obtain ⟨hsynch, hrest⟩ := isSynch_of_lastSynch?_none hnone
      rw [List.length_cons, walkFrom_cons]
      cases hstep : t.step table key stack with
      | error fault =>
          obtain ⟨left, htoken⟩ := token_error obey ts host last done hstep
          rw [htoken, walk_cons_error hstep]
          exact .error fault left _ host
      | ok step =>
          have hnot : t.isSynch = true → last ≠ some done.length := fun h => by
            rw [hsynch] at h
            exact nomatch h
          rw [token_ok obey ts host hstep hnot, walk_cons_ok hstep]
          have hgo := ih hrest (done ++ [step.token]) step.stack (step.commands.foldl obey host)
          rw [List.length_append, List.length_singleton, List.append_assoc, List.append_assoc]
            at hgo
          rw [List.foldl_append]
          exact hgo

theorem trimAll_of_no_synch {ts : List Token} (h : Link.lastSynch? ts = none) (k : Int64) :
    trimAll k ts = ts := by
  induction ts with
  | nil => rfl
  | cons t ts ih =>
      obtain ⟨hsynch, hrest⟩ := isSynch_of_lastSynch?_none h
      rw [trimAll, List.map_cons]
      congr 1
      · cases t with
        | synch s => cases hsynch
        | _ => rfl
      · exact ih hrest

/-- The last synchronized variable reports and lets all of them forget in the middle of a walk:
that is the same as when they do so at its end. -/
theorem walkFrom_last {s : Synch} {k : Int64} {todo : List Token} {stack : Stack} {step : Step}
    (hstep : (Token.synch s).step table (some k) stack = .ok step)
    (hrest : Link.lastSynch? todo = none) (done : List Token) (hlast : last = some done.length)
    (host : σ) :
    ComesTo (walk table (some k) (.synch s :: todo) stack).outcome
      (trimAll k (done ++ (walk table (some k) (.synch s :: todo) stack).tokens))
      ((walk table (some k) (.synch s :: todo) stack).commands.foldl obey host)
      (walkFrom table (some k) last obey (todo.length + 1) done.length
        ⟨done ++ .synch s :: todo, stack, host⟩) := by
  have hsplit (us : List Token) (hus : Link.lastSynch? us = none) :
      trimAll k (done ++ [.synch s]) ++ us = trimAll k (done ++ .synch s :: us) := by
    have hboth : trimAll k ((done ++ [.synch s]) ++ us) =
        trimAll k (done ++ [.synch s]) ++ trimAll k us := List.map_append
    rw [trimAll_of_no_synch hus, List.append_assoc] at hboth
    exact hboth.symm
  have hbehind : Link.lastSynch? (walk table (some k) todo step.stack).tokens = none := by
    rw [Link.lastSynch?_congr (map_bare_walk todo _), hrest]
  have hlength : (trimAll k (done ++ [Token.synch s])).length = done.length + 1 := by
    rw [trimAll, List.length_map, List.length_append, List.length_singleton]
  have hgo := walkFrom_of_no_synch table (some k) obey hrest last
    (trimAll k (done ++ [.synch s])) step.stack host
  rw [hlength, hsplit todo hrest, hsplit _ hbehind] at hgo
  rw [walkFrom_cons, token_last obey host hstep hlast, walk_cons_ok hstep]
  obtain ⟨x, -, rfl⟩ := map_eq_ok hstep
  exact hgo

/-- **A walk in place** up to and past the last synchronized variable comes to what the walk
comes to, with all samples through the common key forgotten if the walk has got past it. -/
theorem walkFrom_eq {todo : List Token} {l : Nat} (hfound : Link.lastSynch? todo = some l)
    (done : List Token) (hlast : last = some (done.length + l)) (stack : Stack) (host : σ) :
    ComesTo (walk table key todo stack).outcome
      ((if l < (walk table key todo stack).reached then key else none).elim
        (done ++ (walk table key todo stack).tokens)
        fun k => trimAll k (done ++ (walk table key todo stack).tokens))
      ((walk table key todo stack).commands.foldl obey host)
      (walkFrom table key last obey todo.length done.length ⟨done ++ todo, stack, host⟩) := by
  induction todo generalizing done stack host l with
  | nil => cases hfound
  | cons t ts ih =>
      rw [List.length_cons]
      cases hstep : t.step table key stack with
      | error fault =>
          obtain ⟨left, htoken⟩ := token_error obey ts host last done hstep
          rw [walkFrom_cons, htoken, walk_cons_error hstep, if_neg (Nat.not_lt_zero l)]
          exact .error fault left _ host
      | ok step =>
          rw [Link.lastSynch?] at hfound
          cases hrest : Link.lastSynch? ts with
          -- another synchronized variable is still to come
          | some l' =>
              rw [hrest] at hfound
              cases hfound
              have hnot : t.isSynch = true → last ≠ some done.length := by
                rw [hlast]
                intro _ h
                have := Option.some.inj h
                omega
              rw [walkFrom_cons, token_ok obey ts host hstep hnot, walk_cons_ok hstep]
              have hnext : last = some ((done ++ [step.token]).length + l') := by
                rw [hlast, List.length_append, List.length_singleton]
                congr 1
                omega
              have hgo := ih hrest (done ++ [step.token]) hnext step.stack
                (step.commands.foldl obey host)
              rw [List.length_append, List.length_singleton, List.append_assoc, List.append_assoc]
                at hgo
              simp only [Nat.add_lt_add_iff_right, List.foldl_append]
              exact hgo
          -- this is the last one
          | none =>
              rw [hrest] at hfound
              dsimp only at hfound
              split at hfound
              · next hsynch =>
                  cases hfound
                  cases t with
                  | synch s =>
                      cases key with
                      | none => cases hstep
                      | some k =>
                          have hpast : 0 <
                              (walk table (some k) (.synch s :: ts) stack).reached := by
                            rw [walk_cons_ok hstep]
                            exact Nat.succ_pos _
                          rw [if_pos hpast]
                          exact walkFrom_last table obey hstep hrest done hlast host
                  | _ => cases hsynch
              · cases hfound

end Walk

end InPlace

namespace Expression

/-- Evaluates the expression once, in place. -/
def evaluateInPlace (e : Expression) (obey : σ → Command → σ) (host : σ) :
    Outcome Timed × Expression × σ :=
  match e.link with
  | (e, .error fault) => (.error fault, e, host)
  | (e, .ok ()) =>
    let (outcome, arena) := InPlace.pass e.table e.lastSynch obey ⟨e.tokens, {}, host⟩
    (outcome, { e with tokens := arena.tokens }, arena.host)

/-- **A pass in place is a pass.**  A linked expression that works in place gives the same
result, is left the same, and has the host obey the same commands in the same order. -/
theorem evaluateInPlace_eq {σ : Type} {e : Expression} (h : e.IsLinked) (obey : σ → Command → σ)
    (host : σ) :
    e.evaluateInPlace obey host =
      (e.evaluate.2.2, e.evaluate.1, e.evaluate.2.1.foldl obey host) := by
  have hlink : e.link = (e, .ok ()) := by rw [link, if_pos h.linked]
  have hwalk : InPlace.ComesTo e.walked.outcome e.kept (e.walked.commands.foldl obey host)
      (InPlace.walkFrom e.table e.commonKey? e.lastSynch obey e.fed.length 0
        ⟨e.fed, {}, host⟩) := by
    have hlast : e.lastSynch = Link.lastSynch? e.fed := by
      rw [h.last, Link.lastSynch?_congr e.map_bare_fed]
    cases hfound : e.lastSynch with
    | none =>
        have hgo := InPlace.walkFrom_of_no_synch e.table e.commonKey? obey
          (hlast.symm.trans hfound) none [] {} host
        rw [kept, reportedKey?, hfound, Option.bind_none, Option.elim_none]
        exact hgo
    | some last =>
        have hat : some last = some (([] : List Token).length + last) := by
          rw [List.length_nil, Nat.zero_add]
        have hgo := InPlace.walkFrom_eq e.table e.commonKey? obey (hlast.symm.trans hfound) [] hat
          {} host
        rw [kept, reportedKey?, hfound, Option.bind_some]
        exact hgo
  have hpass : InPlace.pass e.table e.lastSynch obey ⟨e.tokens, {}, host⟩ =
      match InPlace.walkFrom e.table e.commonKey? e.lastSynch obey e.fed.length 0
        ⟨e.fed, {}, host⟩ with
      | (.ok _, a) => (a.stack.result, a)
      | (.error fault, a) => (.error fault, a) := by
    rw [commonKey?, fed]
    cases e.lastSynch <;> simp only [InPlace.pass, InPlace.bind_eq, InPlace.change_eq,
      InPlace.look_eq, InPlace.lift_eq, Option.isSome_none, Option.isSome_some, Option.bind_none,
      Option.bind_some, Option.elim_none, Option.elim_some, reduceIte, Bool.false_eq_true]
    all_goals rcases InPlace.walkFrom .. with ⟨_ | _, _⟩ <;> rfl
  rw [evaluateInPlace, hlink, evaluate_of_linked h.linked]
  dsimp only
  rw [hpass]
  generalize InPlace.walkFrom .. = run at hwalk ⊢
  generalize e.walked.outcome = outcome at hwalk ⊢
  cases hwalk <;> rfl

end Expression

end Telemetry
