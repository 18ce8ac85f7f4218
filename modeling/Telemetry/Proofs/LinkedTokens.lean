import Telemetry.Proofs.IncrementalLinking

/-!
# The tokens of a linked sequence

Where linking succeeds on tokens among which nothing is synchronized yet, every token that it leaves
is accounted for.  Constants and functions stay.  A reference becomes what the aliases make of it,
and of that a synchronized variable if a request names it, in front of the request or behind it
(`Link.Names`).  No other reference is touched, and the position that is recorded is that of the
last synchronized variable (`Link.linked_exactly`).
-/

namespace Telemetry

namespace Token

theorem ne_synch_of_none {tokens : List Token} (h : synchs tokens = []) {t : Token}
    (ht : t ∈ tokens) (s : Synch) : t ≠ .synch s := by
  rintro rfl
  have hmem := mem_synchs.2 ht
  rw [h] at hmem
  exact List.not_mem_nil hmem

/-- Where nothing is synchronized, only a reference stands for a variable. -/
theorem eq_reference_of_source? {t : Token} {id : Nat} (hsynch : ∀ s, t ≠ .synch s)
    (h : t.source? = some id) : t = .reference id := by
  cases t with
  | reference other =>
      cases h
      rfl
  | synch s => exact absurd rfl (hsynch s)
  | _ => cases h

end Token

namespace Link

variable {config : Configuration} {table : VariableTable} {tokens : List Token} {i id : Nat}

/-! ### Requests -/

/-- A request names a variable: right in front of it stands a reference to the variable, or an
alias of which the variable is the first operand. -/
def Names (tokens : List Token) (id : Nat) : Prop :=
  ∃ i, tokens[i]? = some (.function .valueSynch) ∧
    (before? tokens i 1 = some (.reference id) ∨
      before? tokens i 1 = some (.function .secondName) ∧
        before? tokens i 3 = some (.reference id))

/-- The operand of a request stands for a variable exactly if the request names the variable. -/
theorem source?_operandAt_iff (hnone : synchs tokens = []) :
    (operandAt tokens i).bind Token.source? = some id ↔
      before? tokens i 1 = some (.reference id) ∨
        before? tokens i 1 = some (.function .secondName) ∧
          before? tokens i 3 = some (.reference id) := by
  constructor
  · intro h
    obtain ⟨t, ht, hsource⟩ := Option.bind_eq_some_iff.1 h
    obtain rfl := Token.eq_reference_of_source?
      (Token.ne_synch_of_none hnone (operandAt_mem ht)) hsource
    obtain ⟨front, hfront, hat⟩ := Option.bind_eq_some_iff.1 ht
    split at hat
    · next halias =>
        obtain rfl := (eq_alias_iff front).1 halias
        exact Or.inr ⟨hfront, hat⟩
    · cases hat
      exact Or.inl hfront
  · rintro (hfront | ⟨hfront, hback⟩)
    · rw [operandAt, hfront]
      rfl
    · rw [operandAt, hfront]
      show (before? tokens i 3).bind Token.source? = some id
      rw [hback]
      rfl

/-- The variables that are collected are those that requests name. -/
theorem mem_wanted_iff (hnone : synchs tokens = []) : id ∈ wanted tokens ↔ Names tokens id := by
  rw [wanted, List.mem_filterMap]
  constructor
  · rintro ⟨i, -, hi⟩
    by_cases hrequest : tokens[i]? = some (.function .valueSynch)
    · rw [wantedAt?_eq hrequest] at hi
      exact ⟨i, hrequest, (source?_operandAt_iff hnone).1 hi⟩
    · rw [wantedAt?_of_not_request hrequest] at hi
      cases hi
  · rintro ⟨i, hrequest, hnames⟩
    refine ⟨i, List.mem_range.2 (List.getElem?_eq_some_iff.1 hrequest).1, ?_⟩
    rw [wantedAt?_eq hrequest]
    exact (source?_operandAt_iff hnone).2 hnames

/-! ### Wrapping -/

theorem wrap_eq_reference_iff {ids : List Nat} {t : Token} :
    wrap config ids t = .reference id ↔ t = .reference id ∧ id ∉ ids := by
  cases t with
  | reference other =>
      rw [wrap]
      split
      · next hmem =>
          constructor
          · intro heq
            cases heq
          · rintro ⟨heq, hnot⟩
            cases heq
            exact absurd hmem hnot
      · next hnot =>
          refine ⟨fun heq => ⟨heq, ?_⟩, And.left⟩
          cases heq
          exact hnot
  | _ =>
      constructor
      · intro h
        cases h
      · rintro ⟨h, -⟩
        cases h

theorem wrap_eq_synch_iff {ids : List Nat} {t : Token} {s : Synch} (ht : t ≠ .synch s) :
    wrap config ids t = .synch s ↔ t = .reference s.source ∧ s.source ∈ ids ∧
      s = .empty s.source config.resolution config.historyLimit := by
  cases t with
  | reference other =>
      rw [wrap]
      split
      · next hmem =>
          constructor
          · intro heq
            cases heq
            exact ⟨rfl, hmem, rfl⟩
          · rintro ⟨heq, -, hempty⟩
            cases heq
            rw [← hempty]
      · next hnot =>
          constructor
          · intro heq
            cases heq
          · rintro ⟨heq, hmem, -⟩
            cases heq
            exact absurd hmem hnot
  | synch other =>
      refine ⟨fun h => absurd h ht, ?_⟩
      rintro ⟨h, -⟩
      cases h
  | _ =>
      constructor
      · intro h
        cases h
      · rintro ⟨h, -⟩
        cases h

/-- A reference that is wrapped stands for the variable that it referred to. -/
theorem source?_wrap (ids : List Nat) (t : Token) : (wrap config ids t).source? = t.source? := by
  cases t with
  | reference id =>
      rw [wrap]
      split <;> rfl
  | _ => rfl

theorem getElem?_map_eq_some_iff {f : Token → Token} {t : Token} :
    (tokens.map f)[i]? = some t ↔ ∃ u, tokens[i]? = some u ∧ f u = t := by
  rw [List.getElem?_map, Option.map_eq_some_iff]

/-- References to the variables wrapped become synchronized, and nothing else does. -/
theorem synch_at_wrap_iff (hnone : synchs tokens = []) {ids : List Nat} {s : Synch} :
    (tokens.map (wrap config ids))[i]? = some (.synch s) ↔
      tokens[i]? = some (.reference s.source) ∧ s.source ∈ ids ∧
        s = .empty s.source config.resolution config.historyLimit := by
  rw [getElem?_map_eq_some_iff]
  constructor
  · rintro ⟨t, ht, hwrap⟩
    have hplain := Token.ne_synch_of_none hnone (List.mem_of_getElem? ht) s
    obtain ⟨rfl, hmade⟩ := (wrap_eq_synch_iff hplain).1 hwrap
    exact ⟨ht, hmade⟩
  · rintro ⟨ht, hmade⟩
    have hplain : Token.reference s.source ≠ .synch s := nofun
    exact ⟨_, ht, (wrap_eq_synch_iff hplain).2 ⟨rfl, hmade⟩⟩

/-- The other references stay. -/
theorem reference_at_wrap_iff {ids : List Nat} :
    (tokens.map (wrap config ids))[i]? = some (.reference id) ↔
      tokens[i]? = some (.reference id) ∧ id ∉ ids := by
  rw [getElem?_map_eq_some_iff]
  constructor
  · rintro ⟨t, ht, hwrap⟩
    obtain ⟨rfl, hnot⟩ := wrap_eq_reference_iff.1 hwrap
    exact ⟨ht, hnot⟩
  · rintro ⟨ht, hnot⟩
    exact ⟨_, ht, wrap_eq_reference_iff.2 ⟨rfl, hnot⟩⟩

/-! ### The last synchronized variable -/

theorem lastSynch?_eq_some_iff :
    lastSynch? tokens = some i ↔
      (∃ s, tokens[i]? = some (.synch s)) ∧ ∀ j s, tokens[j]? = some (.synch s) → j ≤ i := by
  constructor
  · intro h
    refine ⟨synch_of_lastSynch? h, fun j s hj => ?_⟩
    obtain ⟨last, hlast, hle⟩ := le_lastSynch? hj
    rw [h] at hlast
    cases hlast
    exact hle
  · rintro ⟨⟨s, hs⟩, hall⟩
    obtain ⟨last, hlast, hle⟩ := le_lastSynch? hs
    obtain ⟨t, ht⟩ := synch_of_lastSynch? hlast
    rw [hlast, Nat.le_antisymm (hall last t ht) hle]

theorem lastSynch?_eq_none_iff : lastSynch? tokens = none ↔ synchs tokens = [] := by
  constructor
  · intro h
    by_contra hne
    obtain ⟨last, hlast⟩ := exists_lastSynch? hne
    cases h.symm.trans hlast
  · intro h
    cases hlast : lastSynch? tokens with
    | none => rfl
    | some last =>
        obtain ⟨s, hs⟩ := synch_of_lastSynch? hlast
        exact absurd rfl (Token.ne_synch_of_none h (List.mem_of_getElem? hs) s)

/-! ### Linking -/

/-- What linking makes when it succeeds. -/
theorem link_eq_of_ok {linked : List Token} {last : Option Nat}
    (h : link config table tokens = ⟨linked, .ok last⟩) :
    aliases table tokens = .ok (pairs table tokens) ∧
      linked = (redirected table tokens).map (wrap config (wanted (redirected table tokens))) ∧
      last = lastSynch? linked := by
  obtain ⟨haccepted, hnamed⟩ := of_link_ok (congrArg Linked.outcome h)
  have hlink : link config table tokens = _ :=
    link_eq haccepted ((named_redirect_iff (resolve (pairs table tokens))).2 hnamed)
  cases h.symm.trans hlink
  exact ⟨aliases_eq_ok_iff.2 ⟨haccepted, rfl⟩, rfl, rfl⟩

theorem applyAliases_pairs (table : VariableTable) (tokens : List Token) :
    applyAliases (pairs table tokens) tokens = redirected table tokens :=
  applyAliases_eq_map _ tokens

/-- Aliases synchronize nothing. -/
theorem synchs_redirect (f : Nat → Nat) (h : synchs tokens = []) :
    synchs (tokens.map (Token.redirect f)) = [] := by
  refine List.eq_nil_iff_forall_not_mem.2 fun s hs => ?_
  obtain ⟨t, ht, hsame⟩ := List.mem_map.1 (mem_synchs.1 hs)
  cases t with
  | synch other => exact Token.ne_synch_of_none h ht other rfl
  | _ => cases hsame

/-- **Linking replaces what it is asked to and nothing else.**  Let linking succeed on tokens of
which none is synchronized, and let `renamed` be what the aliases make of them.  There are as many
tokens as before, and constants and functions stand where they stood.  A position holds a
synchronized variable if and only if `renamed` has a reference there to a variable that a request
of `renamed` names, and then the synchronized variable is for that variable and has taken nothing
yet.  A position holds a reference if and only if `renamed` has the same one there and no request
names its variable.  What is recorded is the greatest position of a synchronized variable, if there
is one. -/
theorem linked_exactly (hnone : synchs tokens = []) {linked : List Token} {last : Option Nat}
    (h : link config table tokens = ⟨linked, .ok last⟩) :
    ∃ renamed, (aliases table tokens).map (applyAliases · tokens) = .ok renamed ∧
      linked.length = tokens.length ∧
      (∀ (i : Nat) (t : Token), t.isFixed = true → (linked[i]? = some t ↔ tokens[i]? = some t)) ∧
      (∀ (i : Nat) (s : Synch), linked[i]? = some (.synch s) ↔
        renamed[i]? = some (.reference s.source) ∧ Names renamed s.source ∧
          s = .empty s.source config.resolution config.historyLimit) ∧
      (∀ (i id : Nat), linked[i]? = some (.reference id) ↔
        renamed[i]? = some (.reference id) ∧ ¬ Names renamed id) ∧
      (∀ i, last = some i ↔ (∃ s, linked[i]? = some (.synch s)) ∧
        ∀ (j : Nat) (s : Synch), linked[j]? = some (.synch s) → j ≤ i) ∧
      (last = none ↔ synchs linked = []) ∧
      ∀ before, (Expression.mk tokens table config before false).link =
        (Expression.mk linked table config last true, .ok ()) := by
  have hfixed : ∀ (i : Nat) (t : Token), t.isFixed = true →
      (linked[i]? = some t ↔ tokens[i]? = some t) := by
    intro i t ht
    have hstays : (link config table tokens).tokens[i]? = some t ↔ tokens[i]? = some t :=
      getElem?_link ht config table
    rwa [h] at hstays
  have hexpression : ∀ before, (Expression.mk tokens table config before false).link =
      (Expression.mk linked table config last true, .ok ()) := by
    intro before
    simp only [Expression.link, h, Bool.false_eq_true, if_false]
  obtain ⟨haliases, hlinked, hlast⟩ := link_eq_of_ok h
  have hplain : synchs (redirected table tokens) = [] := synchs_redirect _ hnone
  refine ⟨redirected table tokens, ?_, ?_, hfixed, ?_, ?_, ?_, ?_, hexpression⟩
  · rw [haliases]
    exact congrArg Except.ok (applyAliases_pairs table tokens)
  · rw [hlinked, List.length_map, redirected, List.length_map]
  · intro i s
    rw [hlinked, synch_at_wrap_iff hplain, mem_wanted_iff hplain]
  · intro i id
    rw [hlinked, reference_at_wrap_iff, mem_wanted_iff hplain]
  · intro i
    rw [hlast, lastSynch?_eq_some_iff]
  · rw [hlast, lastSynch?_eq_none_iff]

/-- A meter that has a second name and is to be synchronized, another variable that is, a reference
by the second name and a variable that is not to be synchronized. -/
def meterTokens : List Token :=
  [.reference 0, .constant (.constant (.text "P")), .function .secondName, .function .valueSynch,
    .reference 1, .function .valueSynch, .reference 2, .reference 3]

/-- The variables of the example. -/
def meterTable : VariableTable :=
  ⟨[{ name := "Meter" }, { name := "Q" }, { name := "P" }, { name := "R" }], by decide⟩

/-- What linking makes of the example. -/
def meterLinked : List Token :=
  [.synch (.empty 0 1000000000 100000), .constant (.constant (.text "P")), .function .secondName,
    .function .valueSynch, .synch (.empty 1 1000000000 100000), .function .valueSynch,
    .synch (.empty 0 1000000000 100000), .reference 3]

/-- In the example the second name stands for the meter, and it is behind the requests. -/
theorem linked_meter :
    synchs meterTokens = [] ∧ link {} meterTable meterTokens = ⟨meterLinked, .ok (some 6)⟩ ∧
      ∃ renamed, (aliases meterTable meterTokens).map (applyAliases · meterTokens) = .ok renamed ∧
        renamed[6]? = some (.reference 0) ∧ Names renamed 0 ∧ Names renamed 1 ∧
          ¬ Names renamed 3 := by
  have hlink : link {} meterTable meterTokens = ⟨meterLinked, .ok (some 6)⟩ := rfl
  obtain ⟨renamed, hrenamed, -, -, hsynch, hreference, -⟩ := linked_exactly rfl hlink
  obtain ⟨hat, hmeter, -⟩ := (hsynch 6 (.empty 0 1000000000 100000)).1 rfl
  exact ⟨rfl, hlink, renamed, hrenamed, hat, hmeter,
    ((hsynch 4 (.empty 1 1000000000 100000)).1 rfl).2.1, ((hreference 7 3).1 rfl).2⟩

end Link

end Telemetry
