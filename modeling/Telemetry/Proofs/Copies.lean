import Telemetry.Proofs.Histories
import Telemetry.Proofs.Lockstep

/-!
# Copies of one variable

Linking puts a synchronized variable of its own in the place of every reference to a variable.
When all of them come from one linking, those that stand for the same variable take the same
samples and forget the same ones, in passes that end well and in passes that fail.  So they are
the same in every state (`Expression.Unanimous`), and those that report in a pass leave the same
operand (`Expression.copies_agree`).
-/

namespace Telemetry

namespace Expression

variable {e : Expression}

/-- Synchronized variables for the same variable are the same, and as long as the expression is
not linked they have taken nothing. -/
structure Unanimous (e : Expression) : Prop where
  same : ∀ s ∈ synchs e.tokens, ∀ s' ∈ synchs e.tokens, s.source = s'.source → s = s'
  blank : e.linked = false → ∀ s ∈ synchs e.tokens,
    s = .empty s.source e.config.resolution e.config.historyLimit

/-- Linking makes synchronized variables that differ in their variables alone. -/
theorem Unanimous.link (h : e.Unanimous) : e.link.1.Unanimous := by
  by_cases hlinked : e.linked = true
  · rw [Expression.link, if_pos hlinked]
    exact h
  · have hblank := h.blank (Bool.eq_false_iff.2 hlinked)
    have hall : ∀ s ∈ synchs e.link.1.tokens,
        s = .empty s.source e.config.resolution e.config.historyLimit := by
      intro s hs
      rw [tokens_link, if_neg hlinked] at hs
      rcases Link.synch_mem_link (mem_synchs.1 hs) with hold | hnew
      · exact hblank s (mem_synchs.2 hold)
      · exact hnew
    refine ⟨fun s hs s' hs' hsame => ?_, fun _ => ?_⟩
    · rw [hall s hs, hall s' hs', hsame]
    · rw [e.link_frame.2]
      exact hall

/-- What is fed to synchronized variables for the same variable is the same. -/
theorem Unanimous.fed (h : e.Unanimous) :
    ∀ s ∈ synchs e.fed, ∀ s' ∈ synchs e.fed, s.source = s'.source → s = s' := by
  rw [Expression.fed]
  cases e.lastSynch with
  | none => exact h.same
  | some last =>
      rw [Option.elim_some, synchs_ingest]
      intro s₁ hs₁ s₁' hs₁' hsame
      obtain ⟨s, hs, rfl⟩ := List.mem_map.1 hs₁
      obtain ⟨s', hs', rfl⟩ := List.mem_map.1 hs₁'
      have hsource : ∀ s : Synch, ((e.table.get? s.source).elim s s.observe).source = s.source := by
        intro s
        cases e.table.get? s.source with
        | none => rfl
        | some v =>
            obtain ⟨s₁, hsame, hsource, -⟩ := Token.synch_of_bare (s.bare_observe v)
            cases hsame
            exact hsource
      rw [hsource, hsource] at hsame
      rw [h.same s hs s' hs' hsame]

/-- A pass forgets the same samples in all of them. -/
theorem Unanimous.pass (h : e.Unanimous) (hlinked : e.linked = true) :
    ({ e with tokens := e.kept } : Expression).Unanimous := by
  refine ⟨?_, fun hunlinked => nomatch hlinked.symm.trans hunlinked⟩
  show ∀ s ∈ synchs e.kept, ∀ s' ∈ synchs e.kept, s.source = s'.source → s = s'
  rw [synchs_kept]
  cases e.reportedKey? with
  | none => exact h.fed
  | some key =>
      intro s₁ hs₁ s₁' hs₁' hsame
      obtain ⟨s, hs, rfl⟩ := List.mem_map.1 hs₁
      obtain ⟨s', hs', rfl⟩ := List.mem_map.1 hs₁'
      rw [h.fed s hs s' hs' hsame]

/-- **An act that appends nothing leaves copies of one variable the same.** -/
theorem Unanimous.act (h : e.Unanimous) {a : Act} (ha : a.isPush = false) :
    (e.act a).Unanimous := by
  cases a with
  | push t => exact nomatch ha
  | refer name => exact nomatch ha
  | link => exact h.link
  | call c =>
      cases c with
      | set name sample =>
          rw [Expression.act, call_set]
          exact ⟨h.same, h.blank⟩
      | evaluate =>
          rw [Expression.act, call]
          rcases e.evaluate_fst with heq | ⟨hlinked, heq⟩
          · rw [heq]
            exact h.link
          · rw [heq]
            exact h.link.pass hlinked

/-- An expression without synchronized variables has no copies that could differ. -/
theorem unanimous_of_none (h : synchs e.tokens = []) : e.Unanimous := by
  refine ⟨fun s hs => ?_, fun _ s hs => ?_⟩ <;>
  · rw [h] at hs
    cases hs

theorem Unanimous.acts (h : e.Unanimous) {as : List Act} (has : ∀ a ∈ as, a.isPush = false) :
    (e.acts as).Unanimous := by
  induction as generalizing e with
  | nil => exact h
  | cons a as ih =>
      exact ih (h.act (has a List.mem_cons_self)) fun b hb => has b (List.mem_cons_of_mem a hb)

/-- The token at position `i` leaves the operand `r` in the next pass. -/
def Leaves (e : Expression) (i : Nat) (r : Timed) : Prop :=
  ∃ below, (walk e.table e.commonKey? (e.fed.take i) {}).outcome = .ok below ∧
    (walk e.table e.commonKey? (e.fed.take (i + 1)) {}).outcome = .ok (below.push r)

/-- A synchronized variable that the pass gets past leaves what it reports. -/
theorem leaves_of_lt_reached {i : Nat} {s : Synch} (hi : i < e.walked.reached)
    (hs : e.fed[i]? = some (.synch s)) :
    ∃ key r, e.commonKey? = some key ∧ s.report key = .ok r ∧ e.Leaves i r := by
  obtain ⟨below, step, hbelow, hstep⟩ := exists_step_of_lt_reached hi hs
  have hnext := congrArg Walk.outcome (walk_take_succ hbelow hs hstep)
  cases Token.stepOk hstep with
  | @synch _ key r hkey hr => exact ⟨key, r, hkey, hr, below, hbelow, hnext⟩

/-- **Copies of one variable agree.**  Let all tokens of an expression be appended before it is
linked, so that it has no synchronized variables of its own, and let a host then link it, set
variables and evaluate as it likes.  In every state two synchronized variables that stand for the
same variable are the same, with the same samples under the same keys and the same time of the
sample that was taken last.  In the next pass those two of them that report leave the same
operand. -/
theorem copies_agree {draft e : Expression} (hnone : synchs draft.tokens = []) {as : List Act}
    (has : ∀ a ∈ as, a.isPush = false) (he : draft.acts as = e) :
    (∀ (i j : Nat) (s s' : Synch), e.tokens[i]? = some (.synch s) →
      e.tokens[j]? = some (.synch s') → s.source = s'.source → s = s') ∧
      (e.linked = true → ∀ (i j : Nat) (s s' : Synch), i < e.walked.reached →
        j < e.walked.reached → e.tokens[i]? = some (.synch s) → e.tokens[j]? = some (.synch s') →
        s.source = s'.source → ∃ r, e.Leaves i r ∧ e.Leaves j r) := by
  have h : e.Unanimous := he ▸ (unanimous_of_none hnone).acts has
  refine ⟨fun i j s s' hs hs' hsame => ?_, fun _ i j s s' hi hj hs hs' hsame => ?_⟩
  · exact h.same s (mem_synchs.2 (List.mem_of_getElem? hs)) s'
      (mem_synchs.2 (List.mem_of_getElem? hs')) hsame
  · obtain ⟨s₁, hs₁, hsource₁, -⟩ := synch_at_of_bare e.map_bare_fed hs
    obtain ⟨s₁', hs₁', hsource₁', -⟩ := synch_at_of_bare e.map_bare_fed hs'
    obtain rfl : s₁ = s₁' := h.fed s₁ (mem_synchs.2 (List.mem_of_getElem? hs₁)) s₁'
      (mem_synchs.2 (List.mem_of_getElem? hs₁')) (by rw [hsource₁, hsource₁', hsame])
    obtain ⟨key, r, hkey, hr, hleaves⟩ := leaves_of_lt_reached hi hs₁
    obtain ⟨key', r', hkey', hr', hleaves'⟩ := leaves_of_lt_reached hj hs₁'
    obtain rfl : key = key' := Option.some.inj (hkey.symm.trans hkey')
    obtain rfl : r = r' := Except.ok.inj (hr.symm.trans hr')
    exact ⟨r, hleaves, hleaves'⟩

/-- A variable with three references, one of which a pass gets to only if `B` is a number. -/
def tripledDraft : Expression :=
  { tokens := [.reference 0, .function .valueSynch, .reference 0,
      .function (.operator (.arithmetic .add)), .reference 1,
      .function (.operator (.arithmetic .add)), .reference 0,
      .function (.operator (.arithmetic .add))]
    table := ((VariableTable.empty.intern "A").2.intern "B").2 }

/-- A pass that lacks a sample and one that fails in front of the last reference. -/
def tripledActs : List Act :=
  [.link, .call .evaluate, .call (.set "A" ⟨.int 2, 5000000000⟩),
    .call (.set "B" ⟨.text "low", 5000000000⟩), .call .evaluate,
    .call (.set "A" ⟨.int 3, 7000000000⟩), .call (.set "B" ⟨.int 1, 7000000000⟩)]

/-- The first and the last reference leave the same operand in the next pass. -/
theorem copies_agree_tripled :
    synchs tripledDraft.tokens = [] ∧ (∀ a ∈ tripledActs, a.isPush = false) ∧
      ∃ r, (tripledDraft.acts tripledActs).Leaves 0 r ∧
        (tripledDraft.acts tripledActs).Leaves 6 r := by
  have hacts : ∀ a ∈ tripledActs, a.isPush = false := by
    intro a ha
    fin_cases ha <;> rfl
  have hfirst : (tripledDraft.act .link).tokens[0]? = some (.synch (.empty 0 1000000000 100000)) :=
    rfl
  have hlast : (tripledDraft.act .link).tokens[6]? = some (.synch (.empty 0 1000000000 100000)) :=
    rfl
  obtain ⟨s, hs, hsource, -⟩ := synch_stays_acts hfirst tripledActs.tail
  obtain ⟨s', hs', hsource', -⟩ := synch_stays_acts hlast tripledActs.tail
  exact ⟨rfl, hacts, (copies_agree rfl hacts rfl).2 (by decide +kernel) 0 6 s s'
    (by decide +kernel) (by decide +kernel) hs hs' (hsource.trans hsource'.symm)⟩

end Expression

end Telemetry
