import Telemetry.Proofs.Compilation

/-!
# Passes that are skipped

A pass that lacks a synchronized sample stops at the first synchronized variable, in the order
of the sequence, that has none under the common key.  Functions behind that token have not
been called, so a windowed statistic or a running calculation there remembers what it did
before.  Functions in front of it have taken their part of the record, and nothing of that is
rolled back (`functions_of_skipped`); that a skipped record leaves them alone as well is
refuted by `skipped_feeds_total`.
-/

namespace Telemetry

/-- The function that a token is. -/
def Token.function? : Token → Option Function
  | .function f => some f
  | _ => none

/-- The function at a position of a sequence. -/
def functionAt? (tokens : List Token) (i : Nat) : Option Function :=
  tokens[i]?.bind Token.function?

theorem functionAt?_map {g : Token → Token} (hg : ∀ t, (g t).function? = t.function?)
    (tokens : List Token) (i : Nat) : functionAt? (tokens.map g) i = functionAt? tokens i := by
  rw [functionAt?, functionAt?, List.getElem?_map]
  cases tokens[i]? with
  | none => rfl
  | some t => exact hg t

/-- Positions behind a front that keeps its length do not see it change. -/
theorem functionAt?_append_right {front front' back : List Token} {i : Nat}
    (hlen : front'.length = front.length) (hi : front.length ≤ i) :
    functionAt? (front' ++ back) i = functionAt? (front ++ back) i := by
  rw [functionAt?, functionAt?, List.getElem?_append_right (hlen ▸ hi),
    List.getElem?_append_right hi, hlen]

theorem functionAt?_append_left {front back : List Token} {i : Nat} (hi : i < front.length) :
    functionAt? (front ++ back) i = functionAt? front i := by
  rw [functionAt?, functionAt?, List.getElem?_append_left hi]

namespace Expression

/-- Taking samples touches no function. -/
theorem functionAt?_fed (e : Expression) (i : Nat) :
    functionAt? e.fed i = functionAt? e.tokens i := by
  cases h : e.lastSynch with
  | none => rw [fed, h, Option.elim_none]
  | some last =>
      rw [fed, h, Option.elim_some]
      refine functionAt?_map (fun t => ?_) e.tokens i
      cases t <;> rfl

/-- Forgetting samples touches no function. -/
theorem functionAt?_kept (e : Expression) (i : Nat) :
    functionAt? e.kept i = functionAt? e.walked.tokens i := by
  cases h : e.reportedKey? with
  | none => rw [kept, h, Option.elim_none]
  | some key =>
      rw [kept, h, Option.elim_some]
      refine functionAt?_map (fun t => ?_) e.walked.tokens i
      cases t <;> rfl

/-- The outcome of a pass is that of its walk, unless the walk ends well. -/
theorem walked_error {e : Expression} (hlinked : e.linked = true) {fault : Fault}
    (h : e.evaluate.2.2 = .error fault) (hfault : ∀ n, fault ≠ .unbalancedStack n) :
    e.walked.outcome = .error fault := by
  rw [outcome_of_linked hlinked] at h
  cases hwalk : e.walked.outcome with
  | error other =>
      rw [hwalk] at h
      exact congrArg Except.error (Except.error.inj h)
  | ok final =>
      rw [hwalk] at h
      rcases final.result_eq with ⟨x, -, hok⟩ | ⟨-, herror⟩
      · exact nomatch hok.symm.trans h
      · exact absurd (Except.error.inj (h.symm.trans herror)) (hfault _)

/-- **What a skipped pass leaves of the functions.**  The pass stops at the first synchronized
variable without a sample under the common key.  Every function behind it is as it was before
the pass, and every function in front of it is as the walk over the tokens in front, which
succeeds, leaves it. -/
theorem functions_of_skipped {e : Expression} (hlinked : e.linked = true)
    (hskip : e.evaluate.2.2 = .error .synchronizationUnavailable) :
    ∃ j s below, e.fed[j]? = some (.synch s) ∧
      (∀ key, e.commonKey? = some key → s.buffer.lookup key = none) ∧
      (∀ i s', i < j → e.fed[i]? = some (.synch s') →
        ∃ key x, e.commonKey? = some key ∧ s'.report key = .ok x) ∧
      (∀ i, j ≤ i → functionAt? e.evaluate.1.tokens i = functionAt? e.tokens i) ∧
      (walk e.table e.commonKey? (e.fed.take j) {}).outcome = .ok below ∧
      (∀ i, i < j → functionAt? e.evaluate.1.tokens i =
        functionAt? (walk e.table e.commonKey? (e.fed.take j) {}).tokens i) := by
  have hwalk : e.walked.outcome = .error .synchronizationUnavailable :=
    walked_error hlinked hskip fun n => Fault.noConfusion
  obtain ⟨s, hstop, hlacks, hearlier⟩ := stop_of_unavailable hwalk
  obtain ⟨front, t, back, below, hfed, hfront, -, hwalked⟩ := walk_fault hwalk
  have hreached : e.walked.reached = front.length := congrArg Walk.reached hwalked
  rw [hreached] at hstop hearlier
  have hlen := length_walk e.table e.commonKey? front {}
  have htake : e.fed.take front.length = front := by rw [hfed, List.take_left']; rfl
  have hafter : ∀ i, functionAt? e.evaluate.1.tokens i =
      functionAt? ((walk e.table e.commonKey? front {}).tokens ++ t :: back) i := by
    intro i
    rw [evaluate_of_linked hlinked]
    show functionAt? e.kept i = _
    rw [functionAt?_kept, walked, hwalked]
  refine ⟨front.length, s, below, hstop, hlacks, hearlier, ?_, ?_, ?_⟩
  · intro i hi
    rw [hafter, functionAt?_append_right hlen hi, ← hfed, functionAt?_fed]
  · rw [htake]
    exact hfront
  · intro i hi
    rw [hafter, htake, functionAt?_append_left (hlen.symm ▸ hi)]

end Expression

/-- Whether an outcome passes a record over for lack of a synchronized sample. -/
def isSkip : Outcome Timed → Bool
  | .error fault => fault = .synchronizationUnavailable
  | .ok _ => false

theorem eq_of_isSkip {o : Outcome Timed} (h : isSkip o = true) :
    o = .error .synchronizationUnavailable := by
  cases o with
  | error fault => exact congrArg Except.error (of_decide_eq_true h)
  | ok r => exact nomatch h

/-- The number of samples that a function retains. -/
def retained : Option Function → Nat
  | some (.aggregate a) => a.history.length
  | _ => 0

/-- A host that sets `A` and not yet `B`. -/
def onlyFirstSet : List Call := [.set "A" ⟨.float 1.0, 1000000000⟩]

/-- Whether the next pass is skipped, and the function at position 2, which remembered nothing,
has taken a sample nevertheless. -/
def skipsAndFeeds (e : Expression) : Bool :=
  isSkip e.evaluate.2.2 && (functionAt? e.tokens 2).any Function.isStateful &&
    retained (functionAt? e.tokens 2) = 0 && retained (functionAt? e.evaluate.1.tokens 2) = 1

/-- The example after `A` has been set and `B` has not: its pass is skipped, and the total,
which had no sample, has one after it. -/
theorem skip_of_feed :
    ∃ e, Replay.Definition.feed.compile {} = .ok e ∧ (e.calls onlyFirstSet).linked = true ∧
      skipsAndFeeds (e.calls onlyFirstSet) = true := by
  have hcheck : (Replay.Definition.feed.compile {}).toOption.any
      (fun e => skipsAndFeeds (e.calls onlyFirstSet)) = true := by decide +kernel
  cases h : Replay.Definition.feed.compile {} with
  | error refusal =>
      rw [h] at hcheck
      exact nomatch hcheck
  | ok e =>
      rw [h] at hcheck
      have hlinked := (Replay.Definition.of_compile h).1
      exact ⟨e, rfl, ((Expression.Continues.refl hlinked).calls onlyFirstSet).linked, hcheck⟩

/-- **A skipped record can feed a statistic.**  It is not so that every pass without a
synchronized sample leaves all statistics and running calculations as they were. -/
theorem skipped_feeds_total :
    ¬ ∀ (d : Replay.Definition) (e : Expression) (cs : List Call), d.compile {} = .ok e →
      (e.calls cs).evaluate.2.2 = .error .synchronizationUnavailable →
      ∀ i, (functionAt? (e.calls cs).tokens i).any Function.isStateful = true →
        functionAt? (e.calls cs).evaluate.1.tokens i = functionAt? (e.calls cs).tokens i := by
  intro hall
  obtain ⟨e, he, -, hcheck⟩ := skip_of_feed
  simp only [skipsAndFeeds, Bool.and_eq_true, decide_eq_true_eq] at hcheck
  obtain ⟨⟨⟨hskip, hstateful⟩, hbefore⟩, hafter⟩ := hcheck
  have hsame := hall _ e onlyFirstSet he (eq_of_isSkip hskip) 2 hstateful
  rw [hsame, hbefore] at hafter
  exact nomatch hafter

/-- The skipped pass of the example stops at the variable `B`, behind the total that it has
fed. -/
theorem functions_of_skip_of_feed :
    ∃ e : Expression, e.linked = true ∧ e.evaluate.2.2 = .error .synchronizationUnavailable ∧
      ∃ j s below, e.fed[j]? = some (.synch s) ∧
        (∀ key, e.commonKey? = some key → s.buffer.lookup key = none) ∧
        (∀ i s', i < j → e.fed[i]? = some (.synch s') →
          ∃ key x, e.commonKey? = some key ∧ s'.report key = .ok x) ∧
        (∀ i, j ≤ i → functionAt? e.evaluate.1.tokens i = functionAt? e.tokens i) ∧
        (walk e.table e.commonKey? (e.fed.take j) {}).outcome = .ok below ∧
        (∀ i, i < j → functionAt? e.evaluate.1.tokens i =
          functionAt? (walk e.table e.commonKey? (e.fed.take j) {}).tokens i) := by
  obtain ⟨e, -, hlinked, hcheck⟩ := skip_of_feed
  simp only [skipsAndFeeds, Bool.and_eq_true] at hcheck
  have hskip := eq_of_isSkip hcheck.1.1.1
  exact ⟨e.calls onlyFirstSet, hlinked, hskip, Expression.functions_of_skipped hlinked hskip⟩

end Telemetry
