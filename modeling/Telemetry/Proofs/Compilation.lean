import Telemetry.Proofs.Depth
import Telemetry.Proofs.Session
import Telemetry.Replay.Definition

/-!
# What compiled definitions answer

A definition that compiles is linked and balanced, and its tokens refer only to variables
that its table has.  Linking keeps that: the variable behind an alias is itself referred to.
So no pass of any session can lack operands, leave a wrong number of values or miss a
variable; what remains is that an operand does not fit, or that synchronized samples are
missing (`answers_of_compile`).
-/

namespace Telemetry

/-- Tokens that refer only to variables among the first `size`. -/
def ReferencesBelow (size : Nat) (tokens : List Token) : Prop :=
  ∀ id, Token.reference id ∈ tokens → id < size

namespace Link

theorem before?_mem {tokens : List Token} {i back : Nat} {t : Token}
    (h : before? tokens i back = some t) : t ∈ tokens := by
  rw [before?] at h
  split at h
  · exact List.mem_of_getElem? h
  · exact nomatch h

/-- The variable that an alias stands for is itself referred to. -/
theorem reference_of_aliasAt {table : VariableTable} {tokens : List Token} {i : Nat}
    {pair : Nat × Nat} (h : aliasAt table tokens i = .ok (some pair)) :
    Token.reference pair.2 ∈ tokens := by
  rw [aliasAt] at h
  dsimp only at h
  split at h
  · next target name time hoperand hlabel =>
      obtain ⟨placeholder, -, hpair⟩ := Option.bind_eq_some_iff.1 (Except.ok.inj h)
      split at hpair
      · exact nomatch hpair
      · cases hpair
        exact before?_mem hoperand
  · exact nomatch h
  · exact nomatch h
  · exact nomatch h

/-- Every variable that stands in for a placeholder is referred to. -/
theorem reference_of_mem_aliases {table : VariableTable} {tokens : List Token}
    {pairs : List (Nat × Nat)} (h : aliases table tokens = .ok pairs) {pair : Nat × Nat}
    (hpair : pair ∈ pairs) : Token.reference pair.2 ∈ tokens := by
  obtain ⟨found, hfound, hpairs⟩ := bind_eq_ok h
  cases hpairs
  obtain ⟨found?, hmem, hsome⟩ := List.mem_filterMap.1 hpair
  obtain ⟨i, -, hi⟩ := mem_of_mapM_ok hfound hmem
  cases hsome
  split at hi
  · split at hi
    · exact reference_of_aliasAt hi
    · exact nomatch hi
  · exact nomatch hi

theorem referencesBelow_rename {size : Nat} {tokens : List Token} {pair : Nat × Nat}
    (htokens : ReferencesBelow size tokens) (hpair : pair.2 < size) :
    ReferencesBelow size (tokens.map (rename pair)) := by
  intro id hid
  obtain ⟨t, ht, hrename⟩ := List.mem_map.1 hid
  cases t with
  | reference old =>
      rw [rename, Token.reference.injEq] at hrename
      split at hrename
      · exact hrename ▸ hpair
      · exact hrename ▸ htokens old ht
  | _ => exact nomatch hrename

theorem referencesBelow_applyAliases {size : Nat} {pairs : List (Nat × Nat)} {tokens : List Token}
    (htokens : ReferencesBelow size tokens) (hpairs : ∀ pair ∈ pairs, pair.2 < size) :
    ReferencesBelow size (applyAliases pairs tokens) := by
  induction pairs generalizing tokens with
  | nil => exact htokens
  | cons pair pairs ih =>
      exact ih (referencesBelow_rename htokens (hpairs pair List.mem_cons_self))
        fun other hother => hpairs other (List.mem_cons_of_mem pair hother)

theorem referencesBelow_wrap {size : Nat} {tokens : List Token} (config : Configuration)
    (ids : List Nat) (htokens : ReferencesBelow size tokens) :
    ReferencesBelow size (tokens.map (wrap config ids)) := by
  intro id hid
  obtain ⟨t, ht, hwrap⟩ := List.mem_map.1 hid
  cases t with
  | reference old =>
      rw [wrap] at hwrap
      split at hwrap
      · cases hwrap
      · exact htokens id (hwrap ▸ ht)
  | _ => cases hwrap

/-- Linking refers to no variable that was not referred to before. -/
theorem referencesBelow_link {config : Configuration} {table : VariableTable}
    {tokens : List Token} {size : Nat} (htokens : ReferencesBelow size tokens) :
    ReferencesBelow size (link config table tokens).tokens := by
  rw [link]
  split
  · exact htokens
  · next pairs hpairs =>
      have hrenamed : ReferencesBelow size (applyAliases pairs tokens) :=
        referencesBelow_applyAliases htokens fun pair hpair =>
          htokens _ (reference_of_mem_aliases hpairs hpair)
      dsimp only
      split
      · exact hrenamed
      · exact referencesBelow_wrap config _ hrenamed

end Link

namespace VariableTable

/-- A name that has a position, or is given one, has it inside the table. -/
theorem intern_lt (t : VariableTable) (name : String) :
    (t.intern name).1 < (t.intern name).2.size ∧ t.size ≤ (t.intern name).2.size := by
  rw [intern]
  split
  · next id hid =>
      obtain ⟨hlt, -⟩ := List.findIdx?_eq_some_iff_getElem.1 hid
      exact ⟨hlt, Nat.le_refl _⟩
  · show t.size < (t.entries ++ [_]).length ∧ t.size ≤ (t.entries ++ [_]).length
    rw [List.length_append]
    exact ⟨Nat.lt_succ_self _, Nat.le_succ _⟩

end VariableTable

namespace Expression

/-- An expression that is still being written and knows the variables it refers to. -/
structure Draft (e : Expression) : Prop where
  unlinked : e.linked = false
  references : ReferencesBelow e.table.size e.tokens

theorem Draft.push {e : Expression} (h : e.Draft) {t : Token}
    (ht : ∀ id, t = .reference id → id < e.table.size) : (e.push t).Draft := by
  refine ⟨rfl, fun id hid => ?_⟩
  rcases List.mem_append.1 hid with hid | hid
  · exact h.references id hid
  · exact ht id (List.mem_singleton.1 hid).symm

theorem Draft.pushVariable {e : Expression} (h : e.Draft) (name : String) :
    (e.pushVariable name).Draft := by
  obtain ⟨hlt, hle⟩ := e.table.intern_lt name
  refine ⟨rfl, fun id hid => ?_⟩
  rcases List.mem_append.1 hid with hid | hid
  · exact Nat.lt_of_lt_of_le (h.references id hid) hle
  · cases List.mem_singleton.1 hid
    exact hlt

/-- An item of source text leaves a draft. -/
theorem Draft.pushItem {e next : Expression} (h : e.Draft) {item : List Char}
    (hitem : e.pushItem item = .ok next) : next.Draft := by
  rw [Expression.pushItem] at hitem
  split at hitem
  · exact nomatch hitem
  · cases hitem
    exact h.push fun id hid => nomatch hid
  · dsimp only at hitem
    split at hitem
    · cases hitem
      exact h.push fun id hid => nomatch hid
    · split at hitem
      · cases hitem
        exact h.pushVariable _
      · exact nomatch hitem

/-- Linking a draft leaves a linked expression that knows the variables it refers to. -/
theorem Draft.link {e : Expression} (h : e.Draft) :
    ReferencesBelow e.link.1.table.size e.link.1.tokens := by
  have hlinked : ReferencesBelow e.table.size (Link.link e.config e.table e.tokens).tokens :=
    Link.referencesBelow_link h.references
  rw [Expression.link, h.unlinked]
  dsimp only
  rw [if_neg Bool.false_ne_true]
  split <;> exact hlinked

/-- An expression of items is linked and knows the variables it refers to. -/
theorem of_ofItems {config : Configuration} {items : List (List Char)} {e : Expression}
    (h : ofItems config items = .ok e) :
    e.linked = true ∧ ReferencesBelow e.table.size e.tokens := by
  obtain ⟨start, hstart, h⟩ := bind_eq_ok h
  obtain ⟨draft, hdraft, h⟩ := bind_eq_ok h
  obtain ⟨⟨⟩, hlink, rfl⟩ := map_eq_ok h
  obtain ⟨⟨⟩, -, rfl⟩ := map_eq_ok hstart
  have hnew : ({ config := config } : Expression).Draft := ⟨rfl, fun id hid => nomatch hid⟩
  have hdone : draft.Draft :=
    foldlM_keeps (P := Draft) (fun e item next he hnext => he.pushItem hnext) hnew hdraft
  exact ⟨linked_link hlink, hdone.link⟩

/-- In a session of a linked expression whose variables are known, a pass that fails at a
token fails for its operands, for a missing operand, or for a missing synchronized sample. -/
theorem Continues.walk_faults {start e : Expression} (h : start.Continues e)
    (hknown : ReferencesBelow start.table.size start.tokens) {fault : Fault}
    (hfault : e.walked.outcome = .error fault) :
    fault.IsStackFault ∨ fault.IsMismatch ∨
      (fault = .synchronizationUnavailable ∧ ∃ s, Token.synch s ∈ start.tokens) := by
  obtain ⟨front, t, back, below, hfed, -, hstep, -⟩ := walk_fault hfault
  have hbare : t.bare ∈ start.tokens.map Token.bare := by
    rw [← h.tokens, ← map_bare_fed, hfed]
    exact List.mem_map_of_mem (List.mem_append_right front List.mem_cons_self)
  obtain ⟨u, hu, hsame⟩ := List.mem_map.1 hbare
  cases Token.step_fault hstep with
  | underflow f hlt => exact Or.inl (.underflow _ _ _)
  | mismatch f hle hf => exact Or.inr (Or.inl hf)
  | unsynchronized s =>
      cases u with
      | synch s' => exact Or.inr (Or.inr ⟨rfl, s', hu⟩)
      | _ => exact nomatch hsame
  | unknown id hnone =>
      cases u with
      | reference id' =>
          cases hsame
          have hsize : e.table.size = start.table.size := by
            rw [← VariableTable.length_names, h.names, VariableTable.length_names]
          have hle := VariableTable.get?_eq_none_iff.1 hnone
          have hlt := hknown id hu
          omega
      | _ => exact nomatch hsame

end Expression

namespace Replay.Definition

/-- A definition that compiles is linked, balanced, and knows the variables it refers to. -/
theorem of_compile {d : Definition} {fallback : Configuration} {e : Expression}
    (h : d.compile fallback = .ok e) :
    e.linked = true ∧ ReferencesBelow e.table.size e.tokens ∧ e.validate = .ok () := by
  obtain ⟨items, -, h⟩ := bind_eq_ok h
  obtain ⟨built, hbuilt, h⟩ := bind_eq_ok h
  obtain ⟨⟨⟩, hvalid, h⟩ := bind_eq_ok h
  cases h
  obtain ⟨hlinked, hknown⟩ := Expression.of_ofItems (mapError_eq_ok hbuilt)
  exact ⟨hlinked, hknown, mapError_eq_ok hvalid⟩

/-- **What a compiled definition can answer.**  Whatever the host sets and however often it
evaluates, every pass gives a value, or an operand does not fit, or, if there is a
synchronized variable at all, a synchronized sample is missing. -/
theorem answers_of_compile {d : Definition} {fallback : Configuration} {e : Expression}
    (h : d.compile fallback = .ok e) (cs : List Call) {o : Outcome Timed}
    (ho : o ∈ e.answers cs) :
    (∃ r, o = .ok r) ∨ (∃ fault, fault.IsMismatch ∧ o = .error fault) ∨
      (o = .error .synchronizationUnavailable ∧ ∃ s, Token.synch s ∈ e.tokens) := by
  obtain ⟨hlinked, hknown, hvalid⟩ := of_compile h
  obtain ⟨earlier, rfl⟩ := Expression.mem_answers ho
  have hstate := (Expression.Continues.refl hlinked).calls earlier
  have hstill : (e.calls earlier).validate = .ok () := by
    rw [← hvalid]
    exact Expression.validate_congr (map_effect_of_map_bare hstate.tokens)
  have hbalanced : ∀ fault, fault.IsStackFault →
      (e.calls earlier).evaluate.2.2 ≠ .error fault := by
    intro fault hstack hfault
    exact nomatch hstill.symm.trans (Expression.validate_of_error hstate.linked hstack hfault)
  rw [Expression.outcome_of_linked hstate.linked] at hbalanced ⊢
  cases hwalk : (e.calls earlier).walked.outcome with
  | error fault =>
      rw [hwalk] at hbalanced
      rcases hstate.walk_faults hknown hwalk with hstack | hmismatch | ⟨rfl, hsynch⟩
      · exact absurd rfl (hbalanced fault hstack)
      · exact Or.inr (Or.inl ⟨fault, hmismatch, rfl⟩)
      · exact Or.inr (Or.inr ⟨rfl, hsynch⟩)
  | ok final =>
      rw [hwalk] at hbalanced
      rcases final.result_eq with ⟨x, -, hok⟩ | ⟨-, herror⟩
      · exact Or.inl ⟨x, hok⟩
      · exact absurd herror (hbalanced _ (.unbalanced _))

/-- The running total of one variable, with the samples of another added in step. -/
def feed : Definition :=
  { name := "feed"
    sequence := .source "A 5 RunningTotal B ValueSynch +".toList
    config := none }

/-- The example compiles, to six tokens. -/
theorem compile_feed : ∃ e, feed.compile {} = .ok e ∧ e.tokens.length = 6 := by
  have hcheck : (feed.compile {}).toOption.any (·.tokens.length = 6) = true := by decide +kernel
  cases h : feed.compile {} with
  | error refusal =>
      rw [h] at hcheck
      exact nomatch hcheck
  | ok e =>
      rw [h] at hcheck
      exact ⟨e, rfl, of_decide_eq_true hcheck⟩

/-- The passes of the example, one before and one after `B` has a sample and one on a text. -/
theorem answers_of_feed :
    ∃ e, feed.compile {} = .ok e ∧
      ∀ o ∈ e.answers
        [.set "A" ⟨.float 1.0, 1000000000⟩, .evaluate, .set "B" ⟨.int 10, 2000000000⟩, .evaluate,
          .set "A" ⟨.text "off", 3000000000⟩, .evaluate],
        (∃ r, o = .ok r) ∨ (∃ fault, fault.IsMismatch ∧ o = .error fault) ∨
          (o = .error .synchronizationUnavailable ∧ ∃ s, Token.synch s ∈ e.tokens) := by
  obtain ⟨e, he, -⟩ := compile_feed
  exact ⟨e, he, fun o ho => answers_of_compile he _ ho⟩

end Replay.Definition

end Telemetry
