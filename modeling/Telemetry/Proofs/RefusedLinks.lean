import Telemetry.Proofs.IncrementalLinking

/-!
# Refused links

Linking refuses an alias or a request whose operands are not what it needs.  All aliases are
examined before the first reference is redirected, and all requests before the first one is
wrapped; but the requests are examined when the aliases have been applied already.  So an expression
that is refused for an alias is as it was, and one that is refused for a request is left with its
references redirected (`Expression.refused_link`).  Its variables and the position of its last
synchronized variable stay in both cases.
-/

namespace Telemetry

namespace Link

variable {config : Configuration} {table : VariableTable} {tokens : List Token} {i : Nat}
  {fault : Fault}

/-- Collecting fails at one of the tokens of the kind. -/
theorem collect_error {p : Token → Bool} {f : Nat → Outcome (Option β)}
    (h : collect p f tokens = .error fault) : ∃ i, f i = .error fault := by
  rw [collect] at h
  cases hfound : (List.range tokens.length).mapM fun i =>
      if tokens[i]?.any p then f i else .ok none with
  | ok found =>
      rw [hfound] at h
      cases h
  | error other =>
      rw [hfound] at h
      cases h
      obtain ⟨i, -, hi⟩ := error_of_mapM_error hfound
      split at hi
      · exact ⟨i, hi⟩
      · cases hi

theorem fault_of_aliasAt (h : aliasAt table tokens i = .error fault) :
    ∃ reason, fault = .invalidLink Function.secondName.name reason := by
  rw [aliasAt] at h
  dsimp only at h
  split at h
  · cases h
  all_goals exact ⟨_, (Except.error.inj h).symm⟩

theorem fault_of_targetAt (h : targetAt tokens i = .error fault) :
    ∃ reason, fault = .invalidLink Function.valueSynch.name reason := by
  rw [targetAt] at h
  dsimp only at h
  split at h
  · cases h
  · cases h
  · split at h
    · cases h
    · cases h
    · exact ⟨_, (Except.error.inj h).symm⟩
  · exact ⟨_, (Except.error.inj h).symm⟩
  · exact ⟨_, (Except.error.inj h).symm⟩

/-- **A link that is refused** is refused for an alias, and leaves the tokens, or for a request, and
leaves them with the aliases applied. -/
theorem tokens_of_refused (h : (link config table tokens).outcome = .error fault) :
    (∃ reason, fault = .invalidLink Function.secondName.name reason) ∧
        (link config table tokens).tokens = tokens ∨
      (∃ reason, fault = .invalidLink Function.valueSynch.name reason) ∧
        (link config table tokens).tokens = redirected table tokens := by
  rw [link] at h ⊢
  split at h
  · next other haliases =>
      cases h
      rw [aliases_eq_collect] at haliases
      obtain ⟨i, hi⟩ := collect_error haliases
      exact Or.inl ⟨fault_of_aliasAt hi, rfl⟩
  · next found haliases =>
      dsimp only at h ⊢
      split at h
      · next other htargets =>
          cases h
          obtain rfl := (aliases_eq_ok_iff.1 haliases).2
          rw [targets_eq_collect] at htargets
          obtain ⟨i, hi⟩ := collect_error htargets
          exact Or.inr ⟨fault_of_targetAt (map_eq_error hi), applyAliases_eq_map _ _⟩
      · cases h

end Link

namespace Expression

variable {e : Expression} {fault : Fault} {name reason : String}

/-- A refused link changes nothing but the tokens. -/
theorem frame_of_refused (h : e.link.2 = .error fault) :
    (Link.link e.config e.table e.tokens).outcome = .error fault ∧
      e.link.1.tokens = (Link.link e.config e.table e.tokens).tokens ∧
      e.link.1 = { e with tokens := e.link.1.tokens } := by
  rw [link] at h ⊢
  split at h
  · cases h
  · next hlinked =>
      rw [if_neg hlinked]
      dsimp only at h ⊢
      split at h
      · cases h
      · next other houtcome =>
          cases h
          rw [houtcome]
          exact ⟨rfl, rfl, rfl⟩

/-- Nothing that is evaluated is refused as a link. -/
theorem walked_not_invalidLink (e : Expression) :
    e.walked.outcome.bind Stack.result ≠ .error (.invalidLink name reason) := by
  intro h
  cases hwalk : e.walked.outcome with
  | ok final =>
      rw [hwalk] at h
      rcases final.result_eq with ⟨x, -, hok⟩ | ⟨-, herror⟩
      · cases hok.symm.trans h
      · cases herror.symm.trans h
  | error fault =>
      rw [hwalk] at h
      cases h
      obtain ⟨front, t, back, below, -, -, hstep, -⟩ := walk_fault hwalk
      cases Token.step_fault hstep with
      | mismatch f hle hmismatch =>
          obtain ⟨function, expected, found, hfault⟩ := hmismatch
          cases hfault

/-- A pass is refused as a link exactly if linking is. -/
theorem evaluate_invalidLink_iff :
    e.evaluate.2.2 = .error (.invalidLink name reason) ↔
      e.link.2 = .error (.invalidLink name reason) := by
  cases hlink : e.link.2 with
  | error fault =>
      rw [evaluate_of_refused hlink, Except.error.injEq, Except.error.injEq]
  | ok u =>
      rw [evaluate_link hlink, outcome_of_linked (linked_link hlink)]
      exact ⟨fun h => absurd h (walked_not_invalidLink _), nofun⟩

/-- Redirecting leaves a sequence exactly if it leaves the variable of every reference. -/
theorem map_redirect_eq_self_iff {f : Nat → Nat} {tokens : List Token} :
    tokens.map (Token.redirect f) = tokens ↔ ∀ id, Token.reference id ∈ tokens → f id = id := by
  constructor
  · intro h id hid
    obtain ⟨i, hi⟩ := List.mem_iff_getElem?.1 hid
    have hat : (tokens.map (Token.redirect f))[i]? = some (.reference (f id)) := by
      rw [List.getElem?_map, hi]
      rfl
    rw [h, hi] at hat
    exact (Token.reference.inj (Option.some.inj hat)).symm
  · intro h
    refine (List.map_congr_left fun t ht => ?_).trans (List.map_id tokens)
    cases t with
    | reference id => exact congrArg Token.reference (h id ht)
    | _ => rfl

/-- **A link that is refused.**  Linking fails only because of the operands of an alias or a
request, and a pass fails so exactly if the linking does that it begins with; it then leaves what
linking leaves, and gives no commands.  The variables, the limits and what is recorded of the last
linking stay.  If the fault is that of an alias, the tokens stay too.  If it is that of a request,
their references are redirected by the aliases, and so the tokens stay if and only if the aliases
leave the variable of every reference. -/
theorem refused_link (e : Expression) :
    (∀ fault, e.link.2 = .error fault → ∃ name reason, fault = .invalidLink name reason) ∧
    (∀ name reason, e.evaluate.2.2 = .error (.invalidLink name reason) ↔
      e.link.2 = .error (.invalidLink name reason)) ∧
    ∀ name reason, e.link.2 = .error (.invalidLink name reason) →
      e.evaluate = (e.link.1, [], .error (.invalidLink name reason)) ∧
      e.link.1 = { e with tokens := e.link.1.tokens } ∧
      (name = "Alias" ∧ e.link.1 = e ∨
        name = "ValueSynch" ∧ e.link.1.tokens = Link.redirected e.table e.tokens ∧
          (e.link.1 = e ↔ ∀ id, Token.reference id ∈ e.tokens →
            Link.resolve (Link.pairs e.table e.tokens) id = id)) := by
  refine ⟨fun fault h => ?_, fun name reason => evaluate_invalidLink_iff, fun name reason h => ?_⟩
  · obtain ⟨houtcome, -⟩ := frame_of_refused h
    rcases Link.tokens_of_refused houtcome with ⟨⟨reason, rfl⟩, -⟩ | ⟨⟨reason, rfl⟩, -⟩
    · exact ⟨_, reason, rfl⟩
    · exact ⟨_, reason, rfl⟩
  · obtain ⟨houtcome, hlinked, hframe⟩ := frame_of_refused h
    have hsame : e.link.1 = e ↔ e.link.1.tokens = e.tokens := by
      refine ⟨congrArg Expression.tokens, fun htokens => ?_⟩
      rw [hframe, htokens]
    refine ⟨evaluate_of_refused h, hframe, ?_⟩
    rcases Link.tokens_of_refused houtcome with ⟨⟨_, hfault⟩, htokens⟩ | ⟨⟨_, hfault⟩, htokens⟩
    · cases hfault
      exact Or.inl ⟨rfl, hsame.2 (hlinked.trans htokens)⟩
    · cases hfault
      refine Or.inr ⟨rfl, hlinked.trans htokens, ?_⟩
      rw [hsame, hlinked, htokens]
      exact map_redirect_eq_self_iff

/-- A reference by the second name of a variable, and behind it a request for a constant. -/
def refusedActs : List Act :=
  [.refer "A", .push (.constant (.constant (.text "P"))), .push (.function .secondName),
    .refer "P", .push (.constant (.constant (.int 1))), .push (.function .valueSynch)]

/-- The request of the example is refused when the reference has been redirected. -/
theorem refused_link_redirects :
    (({} : Expression).acts refusedActs).link.2 =
        .error (.invalidLink "ValueSynch" "operand must be a variable") ∧
      (({} : Expression).acts refusedActs).evaluate = ((({} : Expression).acts refusedActs).link.1,
        [], .error (.invalidLink "ValueSynch" "operand must be a variable")) ∧
      (({} : Expression).acts refusedActs).link.1.tokens =
        Link.redirected (({} : Expression).acts refusedActs).table
          (({} : Expression).acts refusedActs).tokens ∧
      (({} : Expression).acts refusedActs).link.1 ≠ ({} : Expression).acts refusedActs := by
  have hlink : (({} : Expression).acts refusedActs).link.2 =
      .error (.invalidLink "ValueSynch" "operand must be a variable") := rfl
  obtain ⟨heval, -, hcases⟩ := (refused_link (({} : Expression).acts refusedActs)).2.2 _ _ hlink
  rcases hcases with ⟨hname, -⟩ | ⟨-, htokens, hsame⟩
  · exact absurd hname (by decide)
  · refine ⟨hlink, heval, htokens, fun hunchanged => ?_⟩
    have hstays := hsame.1 hunchanged 1 (List.mem_of_getElem? (i := 3) rfl)
    exact absurd hstays (by decide +kernel)

/-- Neither linking nor a pass that is refused like this leaves the tokens as they were. -/
theorem refused_not_atomic :
    (({} : Expression).acts refusedActs).link.2 =
        .error (.invalidLink "ValueSynch" "operand must be a variable") ∧
      (({} : Expression).acts refusedActs).evaluate.2.2 =
        .error (.invalidLink "ValueSynch" "operand must be a variable") ∧
      (({} : Expression).acts refusedActs).tokens[3]? = some (.reference 1) ∧
      (({} : Expression).acts refusedActs).link.1.tokens[3]? = some (.reference 0) ∧
      (({} : Expression).acts refusedActs).evaluate.1.tokens[3]? = some (.reference 0) :=
  ⟨rfl, rfl, rfl, rfl, rfl⟩

end Expression

end Telemetry
