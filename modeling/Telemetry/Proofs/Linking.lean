import Mathlib.Data.List.Basic
import Telemetry.Proofs.Buffers
import Telemetry.Proofs.Session

/-!
# Synchronized variables after linking

Linking records the position of the last synchronized variable, and the synchronized variables
that it makes have taken nothing yet (`Link.synchs_link`).  From then on an expression knows that
position, whatever its host does with it (`Expression.IsLinked`).
-/

namespace Telemetry.Link

/-- No synchronized variable stands behind the last one. -/
theorem le_lastSynch? {tokens : List Token} {i : Nat} {s : Synch}
    (h : tokens[i]? = some (.synch s)) : ∃ last, lastSynch? tokens = some last ∧ i ≤ last := by
  induction tokens generalizing i with
  | nil => exact nomatch h
  | cons t ts ih =>
      rw [lastSynch?]
      cases i with
      | zero =>
          cases h
          cases lastSynch? ts with
          | none => exact ⟨0, rfl, Nat.le_refl 0⟩
          | some j => exact ⟨j + 1, rfl, Nat.zero_le _⟩
      | succ i =>
          obtain ⟨last, hlast, hle⟩ := ih h
          exact ⟨last + 1, by rw [hlast], Nat.succ_le_succ hle⟩

theorem exists_lastSynch? {tokens : List Token} (h : synchs tokens ≠ []) :
    ∃ last, lastSynch? tokens = some last := by
  obtain ⟨s, hs⟩ := List.exists_mem_of_ne_nil _ h
  obtain ⟨i, hi⟩ := List.mem_iff_getElem?.1 (mem_synchs.1 hs)
  obtain ⟨last, hlast, -⟩ := le_lastSynch? hi
  exact ⟨last, hlast⟩

theorem lastSynch?_lt {tokens : List Token} {last : Nat} (h : lastSynch? tokens = some last) :
    last < tokens.length := by
  induction tokens generalizing last with
  | nil => exact nomatch h
  | cons t ts ih =>
      rw [lastSynch?] at h
      rw [List.length_cons]
      split at h
      · next j hj =>
          cases h
          exact Nat.succ_lt_succ (ih hj)
      · split at h
        · cases h
          exact Nat.succ_pos _
        · exact nomatch h

theorem lastSynch?_congr {ts us : List Token} (h : ts.map Token.bare = us.map Token.bare) :
    lastSynch? ts = lastSynch? us := by
  induction ts generalizing us with
  | nil =>
      obtain rfl := List.map_eq_nil_iff.1 h.symm
      rfl
  | cons t ts ih =>
      obtain ⟨u, us, rfl, hu, hus⟩ := List.map_eq_cons_iff.1 h.symm
      have hsynch : t.isSynch = u.isSynch := by rw [← t.isSynch_bare, ← hu, u.isSynch_bare]
      rw [lastSynch?, lastSynch?, ih hus.symm, hsynch]

theorem synch_mem_applyAliases {pairs : List (Nat × Nat)} {tokens : List Token} {s : Synch}
    (h : Token.synch s ∈ applyAliases pairs tokens) : Token.synch s ∈ tokens := by
  induction pairs generalizing tokens with
  | nil => exact h
  | cons pair pairs ih =>
      obtain ⟨t, ht, hsame⟩ := List.mem_map.1 (ih h)
      cases t with
      | synch s' =>
          cases hsame
          exact ht
      | _ => exact nomatch hsame

/-- Linking finds the last synchronized variable of what it makes. -/
theorem last_link {config : Configuration} {table : VariableTable} {tokens : List Token}
    {last : Option Nat} (h : (link config table tokens).outcome = .ok last) :
    last = lastSynch? (link config table tokens).tokens := by
  rw [link] at h ⊢
  split at h
  · cases h
  · dsimp only at h ⊢
    split at h
    · cases h
    · exact (Except.ok.inj h).symm

/-- The last synchronized variable is one. -/
theorem synch_of_lastSynch? {tokens : List Token} {last : Nat}
    (h : lastSynch? tokens = some last) : ∃ s, tokens[last]? = some (.synch s) := by
  induction tokens generalizing last with
  | nil => cases h
  | cons t ts ih =>
      rw [lastSynch?] at h
      split at h
      · next i hi =>
          cases h
          exact ih hi
      · split at h
        · next hsynch =>
            cases h
            cases t with
            | synch s => exact ⟨s, rfl⟩
            | _ => cases hsynch
        · cases h

/-- A synchronized variable after linking was there before, or has taken nothing yet. -/
theorem synch_mem_link {config : Configuration} {table : VariableTable} {tokens : List Token}
    {s : Synch} (h : Token.synch s ∈ (link config table tokens).tokens) :
    Token.synch s ∈ tokens ∨ s = .empty s.source config.resolution config.historyLimit := by
  rw [link] at h
  split at h
  · exact Or.inl h
  · dsimp only at h
    split at h
    · exact Or.inl (synch_mem_applyAliases h)
    · obtain ⟨t, ht, hwrap⟩ := List.mem_map.1 h
      cases t with
      | reference id =>
          rw [wrap] at hwrap
          split at hwrap
          · cases hwrap
            exact Or.inr rfl
          · cases hwrap
      | synch s' =>
          cases hwrap
          exact Or.inl (synch_mem_applyAliases ht)
      | _ => cases hwrap

/-- Linking finds the last synchronized variable, and those that it makes have taken nothing. -/
theorem synchs_link {config : Configuration} {table : VariableTable} {tokens : List Token}
    (hnone : synchs tokens = []) {last : Option Nat}
    (h : (link config table tokens).outcome = .ok last) :
    last = lastSynch? (link config table tokens).tokens ∧
      ∀ s ∈ synchs (link config table tokens).tokens,
        s = .empty s.source config.resolution config.historyLimit := by
  refine ⟨last_link h, fun s hs => (synch_mem_link (mem_synchs.1 hs)).resolve_left fun hold => ?_⟩
  have hmem := mem_synchs.2 hold
  rw [hnone] at hmem
  exact List.not_mem_nil hmem

end Telemetry.Link

namespace Telemetry

/-! ### Linked expressions -/

namespace Expression

/-- A linked expression, which knows its last synchronized variable. -/
structure IsLinked (e : Expression) : Prop where
  linked : e.linked = true
  last : e.lastSynch = Link.lastSynch? e.tokens

/-- What linking leaves, if it succeeds, is linked. -/
theorem isLinked_link {e : Expression} (hunlinked : e.linked = false) (h : e.link.2 = .ok ()) :
    e.link.1.IsLinked := by
  refine ⟨linked_link h, ?_⟩
  rw [link, hunlinked, if_neg Bool.false_ne_true] at h ⊢
  dsimp only at h ⊢
  split at h
  · next last hlast => exact Link.last_link hlast
  · cases h

/-- A state of a linked expression is linked. -/
theorem IsLinked.of_continues {start e : Expression} (h : start.IsLinked)
    (hstate : start.Continues e) : e.IsLinked := by
  refine ⟨hstate.linked, ?_⟩
  rw [hstate.lastSynch, h.last, Link.lastSynch?_congr hstate.tokens]

/-- After a call an expression is still linked. -/
theorem IsLinked.calls {e : Expression} (h : e.IsLinked) (cs : List Call) : (e.calls cs).IsLinked :=
  h.of_continues ((Continues.refl h.linked).calls cs)

end Expression

end Telemetry
