import Telemetry.Expression
import Telemetry.Proofs.Walk

/-!
# The parts of a pass

A pass of a linked expression in three parts that can be spoken of one by one: the tokens
after every synchronized variable has taken its sample (`fed`), the walk over them with the
common key (`walked`), and the key through which the samples are forgotten at the end
(`reportedKey?`).  `evaluate_of_linked` puts the pass together again.  A pass changes of the
tokens only what they remember (`map_bare_evaluate`).
-/

namespace Telemetry

@[simp] theorem Synch.bare_observe (s : Synch) (v : Variable) :
    (Token.synch (s.observe v)).bare = (Token.synch s).bare := by
  simp only [observe, Token.bare]
  split <;> rfl

/-- Taking samples changes of the tokens only what they remember. -/
@[simp] theorem map_bare_ingest (table : VariableTable) (tokens : List Token) :
    (ingest table tokens).map Token.bare = tokens.map Token.bare := by
  rw [ingest, List.map_map]
  refine List.map_congr_left fun t _ => ?_
  cases t with
  | synch s => cases h : table.get? s.source <;> simp [h]
  | _ => rfl

/-- Forgetting samples changes of the tokens only what they remember. -/
@[simp] theorem map_bare_trimAll (key : Int64) (tokens : List Token) :
    (trimAll key tokens).map Token.bare = tokens.map Token.bare := by
  rw [trimAll, List.map_map]
  refine List.map_congr_left fun t _ => ?_
  cases t <;> rfl

namespace Expression

/-- The tokens of the next pass after every synchronized variable has taken its sample. -/
def fed (e : Expression) : List Token :=
  e.lastSynch.elim e.tokens fun _ => ingest e.table e.tokens

/-- The common key of the next pass. -/
def commonKey? (e : Expression) : Option Int64 :=
  e.lastSynch.bind fun _ => Telemetry.commonKey? e.fed

/-- The walk of the next pass. -/
def walked (e : Expression) : Walk := walk e.table e.commonKey? e.fed {}

/-- The key that the next pass reports: the common key, if the walk gets past the last
synchronized variable. -/
def reportedKey? (e : Expression) : Option Int64 :=
  e.lastSynch.bind fun last => if last < e.walked.reached then e.commonKey? else none

/-- The tokens that the next pass leaves. -/
def kept (e : Expression) : List Token :=
  e.reportedKey?.elim e.walked.tokens fun key => trimAll key e.walked.tokens

/-- A pass is the walk over the fed tokens; it forgets through the key that it reports. -/
theorem evaluate_of_linked {e : Expression} (h : e.linked = true) :
    e.evaluate =
      ({ e with tokens := e.kept }, e.walked.commands, e.walked.outcome.bind Stack.result) := by
  have hlink : e.link = (e, .ok ()) := by rw [link, if_pos h]
  have hrun : Pass.run e.table e.lastSynch e.tokens =
      ⟨e.kept, e.walked.commands, e.walked.outcome.bind Stack.result⟩ := by
    cases hlast : e.lastSynch with
    | none => simp only [Pass.run, kept, reportedKey?, walked, fed, commonKey?, hlast,
        Option.elim_none, Option.bind_none]
    | some last =>
        have hfed : e.fed = ingest e.table e.tokens := by rw [fed, hlast, Option.elim_some]
        have hkey : e.commonKey? = Telemetry.commonKey? e.fed := by
          rw [commonKey?, hlast, Option.bind_some]
        simp only [Pass.run, kept, reportedKey?, hlast, Option.bind_some, walked, hkey, hfed]
        cases Telemetry.commonKey? (ingest e.table e.tokens) with
        | none => simp
        | some key =>
            by_cases hreach : last <
                (walk e.table (some key) (ingest e.table e.tokens) {}).reached <;>
              simp [hreach]
  rw [evaluate, hlink]
  show ({ e with tokens := (Pass.run e.table e.lastSynch e.tokens).tokens },
    (Pass.run e.table e.lastSynch e.tokens).commands,
    (Pass.run e.table e.lastSynch e.tokens).outcome) = _
  rw [hrun]

/-- The outcome of a pass: what the walk fails with, or the end of its stack. -/
theorem outcome_of_linked {e : Expression} (h : e.linked = true) :
    e.evaluate.2.2 = e.walked.outcome.bind Stack.result := by
  rw [evaluate_of_linked h]

/-- Linking that succeeds leaves a linked expression. -/
theorem linked_link {e : Expression} (h : e.link.2 = .ok ()) : e.link.1.linked = true := by
  rw [link] at h ⊢
  split at h
  · next hl => rw [if_pos hl]; exact hl
  · next hl =>
      rw [if_neg hl]
      dsimp only at h ⊢
      split at h
      · rfl
      · exact nomatch h

/-- Evaluation links first. -/
theorem evaluate_link {e : Expression} (h : e.link.2 = .ok ()) :
    e.evaluate = e.link.1.evaluate := by
  have hagain : e.link.1.link = (e.link.1, .ok ()) := by rw [link, if_pos (linked_link h)]
  obtain ⟨linked, outcome, hlink⟩ : ∃ linked outcome, e.link = (linked, outcome) := ⟨_, _, rfl⟩
  rw [hlink] at h hagain ⊢
  cases h
  rw [evaluate, hlink, evaluate, hagain]

/-- A walk that lacks a synchronized sample stops at a synchronized variable that has none under
the common key; every synchronized variable in front of it has reported. -/
theorem stop_of_unavailable {e : Expression}
    (h : e.walked.outcome = .error .synchronizationUnavailable) :
    ∃ s, e.fed[e.walked.reached]? = some (.synch s) ∧
      (∀ key, e.commonKey? = some key → s.buffer.lookup key = none) ∧
      ∀ i s', i < e.walked.reached → e.fed[i]? = some (.synch s') →
        ∃ key x, e.commonKey? = some key ∧ s'.report key = .ok x := by
  obtain ⟨front, t, back, below, hfed, hfront, hstep, hwalked⟩ := walk_fault h
  obtain ⟨s, rfl, hlacks⟩ := synch_of_step_unavailable hstep
  have hreached : e.walked.reached = front.length := congrArg Walk.reached hwalked
  rw [hreached, hfed]
  refine ⟨s, ?_, hlacks, fun i s' hi hs' => ?_⟩
  · rw [List.getElem?_append_right (Nat.le_refl _), Nat.sub_self]
    rfl
  · rw [List.getElem?_append_left hi] at hs'
    exact report_of_walk_ok hfront (List.mem_of_getElem? hs')

/-- The tokens of the next pass are those there are, up to what they remember. -/
@[simp] theorem map_bare_fed (e : Expression) : e.fed.map Token.bare = e.tokens.map Token.bare := by
  cases h : e.lastSynch with
  | none => rw [fed, h, Option.elim_none]
  | some last => rw [fed, h, Option.elim_some, map_bare_ingest]

/-- A pass changes of the tokens only what they remember. -/
@[simp] theorem map_bare_kept (e : Expression) :
    e.kept.map Token.bare = e.tokens.map Token.bare := by
  have hwalk : e.walked.tokens.map Token.bare = e.tokens.map Token.bare := by
    rw [walked, map_bare_walk, map_bare_fed]
  cases h : e.reportedKey? with
  | none => rw [kept, h, Option.elim_none, hwalk]
  | some key => rw [kept, h, Option.elim_some, map_bare_trimAll, hwalk]

end Expression

end Telemetry
