import Telemetry.Proofs.Written

/-!
# What linking replaces

The two replacements of linking without their failures.  `Link.pairs` are the placeholders and
variables of the aliases of a sequence, and `Link.resolve` is what becomes of a variable when they
are applied one after the other.  `Link.wanted` are the variables to be synchronized.  Linking
succeeds exactly when every alias has a variable and a text in front of it, and every request for
synchronization something that stands for a variable (`Link.aliases_eq_ok_iff`,
`Link.targets_eq_ok_iff`); then it renames and wraps by these (`Link.link_eq`).
-/

namespace Telemetry

/-- The variable that a token stands for. -/
def Token.source? : Token → Option Nat
  | .reference id => some id
  | .synch s => some s.source
  | _ => none

namespace Link

variable {table : VariableTable} {tokens : List Token} {i : Nat}

theorem before?_map (f : Token → Token) (tokens : List Token) (i back : Nat) :
    before? (tokens.map f) i back = (before? tokens i back).map f := by
  rw [before?, before?]
  split
  · rw [List.getElem?_map]
  · rfl

theorem before?_append {more : List Token} {back : Nat} (h : i < tokens.length) :
    before? (tokens ++ more) i back = before? tokens i back := by
  rw [before?, before?, List.getElem?_append_left (Nat.lt_of_le_of_lt (Nat.sub_le i back) h)]

/-! ### Collecting -/

section Collect

variable {β : Type} {p : Token → Bool} {f : Nat → Outcome (Option β)}

/-- What is found at a position, if there is a token of the kind asked about. -/
def foundAt? (p : Token → Bool) (f : Nat → Outcome (Option β)) (tokens : List Token) (i : Nat) :
    Option β :=
  if tokens[i]?.any p then (f i).toOption.join else none

/-- What is found at all tokens of a kind, in order; it fails if one of them is refused. -/
def collect (p : Token → Bool) (f : Nat → Outcome (Option β)) (tokens : List Token) :
    Outcome (List β) := do
  let found ← (List.range tokens.length).mapM fun i =>
    if tokens[i]?.any p then f i else .ok none
  return found.filterMap id

theorem any_at_iff {t : Token} (hp : ∀ u, p u = true ↔ u = t) :
    tokens[i]?.any p = true ↔ tokens[i]? = some t := by
  rw [Option.any_eq_true]
  constructor
  · rintro ⟨u, hu, hpu⟩
    rw [hu, (hp u).1 hpu]
  · intro h
    exact ⟨t, h, (hp t).2 rfl⟩

/-- **Collecting succeeds exactly if no token of the kind is refused.** -/
theorem collect_eq_ok_iff {ys : List β} :
    collect p f tokens = .ok ys ↔
      (∀ i, tokens[i]?.any p = true → ∃ y, f i = .ok y) ∧
        ys = (List.range tokens.length).filterMap (foundAt? p f tokens) := by
  have hall (hok : ∀ i, tokens[i]?.any p = true → ∃ y, f i = .ok y) :
      collect p f tokens = .ok ((List.range tokens.length).filterMap (foundAt? p f tokens)) := by
    have hmap : (List.range tokens.length).mapM (fun i =>
        if tokens[i]?.any p then f i else .ok none) =
          .ok ((List.range tokens.length).map (foundAt? p f tokens)) := by
      refine mapM_eq_pure (m := Outcome) fun i _ => ?_
      rw [foundAt?]
      by_cases hany : tokens[i]?.any p = true
      · obtain ⟨y, hy⟩ := hok i hany
        rw [if_pos hany, if_pos hany, hy]
        rfl
      · rw [if_neg hany, if_neg hany]
        rfl
    rw [collect, hmap]
    show Except.ok (((List.range tokens.length).map (foundAt? p f tokens)).filterMap id) = _
    rw [List.filterMap_map]
    rfl
  constructor
  · intro h
    have hok : ∀ i, tokens[i]?.any p = true → ∃ y, f i = .ok y := by
      intro i hi
      obtain ⟨found, hfound, -⟩ := bind_eq_ok h
      obtain ⟨t, ht, -⟩ := (Option.any_eq_true _ _).1 hi
      obtain ⟨y, hy⟩ := ok_of_mapM_ok hfound (List.mem_range.2 (List.getElem?_eq_some_iff.1 ht).1)
      rw [if_pos hi] at hy
      exact ⟨y, hy⟩
    exact ⟨hok, Except.ok.inj (h.symm.trans (hall hok))⟩
  · rintro ⟨hok, rfl⟩
    exact hall hok

end Collect

/-! ### Aliases -/

theorem eq_alias_iff (t : Token) : isAlias t = true ↔ t = .function .secondName := by
  cases t with
  | function f => cases f <;> simp [isAlias]
  | _ => simp [isAlias]

/-- The placeholder and the variable that the alias at a position binds, if there is one and it
binds any. -/
def pairAt? (table : VariableTable) (tokens : List Token) : Nat → Option (Nat × Nat) :=
  foundAt? isAlias (aliasAt table tokens) tokens

/-- The placeholders and variables of all aliases, in order. -/
def pairs (table : VariableTable) (tokens : List Token) : List (Nat × Nat) :=
  (List.range tokens.length).filterMap (pairAt? table tokens)

/-- An alias that linking accepts: it has a variable and a text in front of it. -/
def Accepted (tokens : List Token) (i : Nat) : Prop :=
  ∃ target name time, before? tokens i 2 = some (.reference target) ∧
    before? tokens i 1 = some (.constant ⟨.text name, time⟩)

theorem aliasAt_eq {target : Nat} {name : String} {time : Instant}
    (htarget : before? tokens i 2 = some (.reference target))
    (hname : before? tokens i 1 = some (.constant ⟨.text name, time⟩)) :
    aliasAt table tokens i = .ok ((table.position? name).bind fun placeholder =>
      if placeholder = target then none else some (placeholder, target)) := by
  rw [aliasAt, htarget, hname]

/-- An accepted alias binds its placeholder to its variable, if these are not the same. -/
theorem pairAt?_eq {target : Nat} {name : String} {time : Instant}
    (h : tokens[i]? = some (.function .secondName))
    (htarget : before? tokens i 2 = some (.reference target))
    (hname : before? tokens i 1 = some (.constant ⟨.text name, time⟩)) :
    pairAt? table tokens i = (table.position? name).bind fun placeholder =>
      if placeholder = target then none else some (placeholder, target) := by
  rw [pairAt?, foundAt?, if_pos ((any_at_iff eq_alias_iff).2 h), aliasAt_eq htarget hname]
  rfl

theorem pairAt?_of_not_alias (h : tokens[i]? ≠ some (.function .secondName)) :
    pairAt? table tokens i = none := by
  rw [pairAt?, foundAt?, if_neg fun hany => h ((any_at_iff eq_alias_iff).1 hany)]

theorem aliases_eq_collect (table : VariableTable) (tokens : List Token) :
    aliases table tokens = collect isAlias (aliasAt table tokens) tokens := by
  rw [aliases, collect]
  congr 1
  refine congrArg (fun f => (List.range tokens.length).mapM f) (funext fun i => ?_)
  cases tokens[i]? <;> rfl

/-- **Aliases are collected exactly if every one of them is accepted.** -/
theorem aliases_eq_ok_iff {found : List (Nat × Nat)} :
    aliases table tokens = .ok found ↔
      (∀ i, tokens[i]? = some (.function .secondName) → Accepted tokens i) ∧
        found = pairs table tokens := by
  rw [aliases_eq_collect, collect_eq_ok_iff]
  refine and_congr_left' (forall_congr' fun i => ?_)
  rw [any_at_iff eq_alias_iff]
  refine imp_congr_right fun _ => ⟨?_, ?_⟩
  · rintro ⟨y, hy⟩
    obtain ⟨target, name, time, htarget, hname, -⟩ := of_aliasAt_ok hy
    exact ⟨target, name, time, htarget, hname⟩
  · rintro ⟨target, name, time, htarget, hname⟩
    exact ⟨_, aliasAt_eq htarget hname⟩

theorem resolve_cons (pair : Nat × Nat) (pairs : List (Nat × Nat)) (id : Nat) :
    resolve (pair :: pairs) id = resolve pairs (if id = pair.1 then pair.2 else id) := rfl

/-- A variable that is no placeholder stays. -/
theorem resolve_of_not_mem {pairs : List (Nat × Nat)} {id : Nat} (h : ∀ pair ∈ pairs, id ≠ pair.1) :
    resolve pairs id = id := by
  induction pairs with
  | nil => rfl
  | cons pair pairs ih =>
      rw [resolve, List.foldl_cons, if_neg (h pair List.mem_cons_self)]
      exact ih fun other hother => h other (List.mem_cons_of_mem pair hother)

/-- When no placeholder is replaced by another, the first replacement counts. -/
theorem resolve_cons_same {pairs : List (Nat × Nat)} {pair : Nat × Nat}
    (h : ∀ other ∈ pairs, pair.2 ≠ other.1) : resolve (pair :: pairs) pair.1 = pair.2 := by
  rw [resolve, List.foldl_cons, if_pos rfl]
  exact resolve_of_not_mem h

theorem resolve_cons_other {pairs : List (Nat × Nat)} {pair : Nat × Nat} {id : Nat}
    (h : id ≠ pair.1) : resolve (pair :: pairs) id = resolve pairs id := by
  rw [resolve, List.foldl_cons, if_neg h]
  rfl

/-- Some of the replacements at the front, all those of some placeholders, leave a variable or
replace it like all of them. -/
theorem resolve_filter {front more : List (Nat × Nat)} (p : Nat → Bool)
    (h : ∀ pair ∈ front ++ more, ∀ other ∈ front ++ more, pair.2 ≠ other.1) (id : Nat) :
    resolve (front.filter fun pair => p pair.1) id = id ∨
      resolve (front.filter fun pair => p pair.1) id = resolve (front ++ more) id := by
  induction front with
  | nil => exact Or.inl rfl
  | cons pair front ih =>
      have htarget : ∀ other ∈ front ++ more, pair.2 ≠ other.1 := fun other hother =>
        h _ List.mem_cons_self other (List.mem_cons_of_mem _ hother)
      have hrest := ih fun pair hpair other hother =>
        h pair (List.mem_cons_of_mem _ hpair) other (List.mem_cons_of_mem _ hother)
      by_cases hsame : id = pair.1
      · subst hsame
        by_cases hp : p pair.1 = true
        · right
          rw [List.filter_cons, if_pos hp, List.cons_append, resolve_cons_same htarget]
          exact resolve_cons_same fun other hother =>
            htarget other (List.mem_append_left more (List.mem_filter.1 hother).1)
        · left
          refine resolve_of_not_mem fun other hother heq => hp ?_
          rw [heq]
          exact (List.mem_filter.1 hother).2
      · rw [List.cons_append, resolve_cons_other hsame, List.filter_cons]
        split
        · rw [resolve_cons_other hsame]
          exact hrest
        · exact hrest

/-- No alias is given a variable that is replaced itself. -/
def Flat (table : VariableTable) (tokens : List Token) : Prop :=
  ∀ (i target : Nat), tokens[i]? = some (.function .secondName) →
    before? tokens i 2 = some (.reference target) → ∀ pair ∈ pairs table tokens, target ≠ pair.1

/-- An alias binds a placeholder to a variable: a reference to the variable and the name of the
placeholder stand in front of it, and they are not the same variable. -/
def Binds (table : VariableTable) (tokens : List Token) (placeholder target : Nat) : Prop :=
  ∃ (i : Nat) (name : String) (time : Instant), tokens[i]? = some (.function .secondName) ∧
    before? tokens i 2 = some (.reference target) ∧
    before? tokens i 1 = some (.constant ⟨.text name, time⟩) ∧
    table.position? name = some placeholder ∧ placeholder ≠ target

/-- The aliases that are collected are those that bind something. -/
theorem mem_pairs_iff {placeholder target : Nat} :
    (placeholder, target) ∈ pairs table tokens ↔ Binds table tokens placeholder target := by
  rw [pairs, List.mem_filterMap]
  constructor
  · rintro ⟨i, -, hi⟩
    by_cases halias : tokens[i]? = some (.function .secondName)
    · rw [pairAt?, foundAt?, if_pos ((any_at_iff eq_alias_iff).2 halias)] at hi
      cases hfound : aliasAt table tokens i with
      | error fault =>
          rw [hfound] at hi
          cases hi
      | ok found =>
          rw [hfound] at hi
          obtain ⟨other, name, time, htarget, hname, rfl⟩ := of_aliasAt_ok hfound
          have hbound : ((table.position? name).bind fun placeholder =>
              if placeholder = other then none else some (placeholder, other)) =
                some (placeholder, target) := hi
          obtain ⟨known, hplaceholder, hpair⟩ := Option.bind_eq_some_iff.1 hbound
          split at hpair
          · cases hpair
          · next hne =>
              cases hpair
              exact ⟨i, name, time, halias, htarget, hname, hplaceholder, hne⟩
    · rw [pairAt?_of_not_alias halias] at hi
      cases hi
  · rintro ⟨i, name, time, halias, htarget, hname, hplaceholder, hne⟩
    refine ⟨i, List.mem_range.2 (List.getElem?_eq_some_iff.1 halias).1, ?_⟩
    rw [pairAt?_eq halias htarget hname, hplaceholder, Option.bind_some, if_neg hne]

/-- An alias binds a variable that is known to the one in front of it. -/
theorem alias_of_mem_pairs {pair : Nat × Nat} (h : pair ∈ pairs table tokens) :
    pair.1 < table.size ∧ ∃ i, tokens[i]? = some (.function .secondName) ∧
      before? tokens i 2 = some (.reference pair.2) := by
  obtain ⟨i, name, time, halias, htarget, -, hplaceholder, -⟩ := mem_pairs_iff.1 h
  exact ⟨VariableTable.position?_lt hplaceholder, i, halias, htarget⟩

theorem Flat.apart (h : Flat table tokens) :
    ∀ pair ∈ pairs table tokens, ∀ other ∈ pairs table tokens, pair.2 ≠ other.1 := by
  intro pair hpair
  obtain ⟨-, i, halias, htarget⟩ := alias_of_mem_pairs hpair
  exact h i pair.2 halias htarget

/-- A variable stays or becomes one that an alias is given. -/
theorem resolve_eq_or (pairs : List (Nat × Nat)) (id : Nat) :
    resolve pairs id = id ∨ ∃ pair ∈ pairs, resolve pairs id = pair.2 := by
  induction pairs generalizing id with
  | nil => exact Or.inl rfl
  | cons pair pairs ih =>
      have hlater : ∀ other, (∃ target ∈ pairs, resolve pairs other = target.2) →
          ∃ target ∈ pair :: pairs, resolve pairs other = target.2 := by
        rintro other ⟨target, htarget, hresolve⟩
        exact ⟨target, List.mem_cons_of_mem pair htarget, hresolve⟩
      rw [resolve_cons]
      split
      · rcases ih pair.2 with hsame | hother
        · exact Or.inr ⟨pair, List.mem_cons_self, hsame⟩
        · exact Or.inr (hlater _ hother)
      · exact (ih id).imp_right (hlater id)

/-- What a variable becomes stays. -/
theorem resolve_resolve {pairs : List (Nat × Nat)}
    (h : ∀ pair ∈ pairs, ∀ other ∈ pairs, pair.2 ≠ other.1) (id : Nat) :
    resolve pairs (resolve pairs id) = resolve pairs id := by
  rcases resolve_eq_or pairs id with hsame | ⟨pair, hpair, htarget⟩
  · rw [hsame, hsame]
  · rw [htarget]
    exact resolve_of_not_mem (h pair hpair)

/-! ### Requests for synchronization -/

theorem eq_valueSynch_iff (t : Token) : isValueSynch t = true ↔ t = .function .valueSynch := by
  cases t with
  | function f => cases f <;> simp [isValueSynch]
  | _ => simp [isValueSynch]

/-- The token in front of a position, or the one in front of an alias there. -/
def operandAt (tokens : List Token) (i : Nat) : Option Token :=
  (before? tokens i 1).bind fun t => if isAlias t then before? tokens i 3 else some t

/-- A request names the variable that its operand stands for. -/
theorem targetAt_eq_ok_iff {id : Nat} :
    targetAt tokens i = .ok id ↔ (operandAt tokens i).bind Token.source? = some id := by
  rw [targetAt, operandAt]
  cases hfront : before? tokens i 1 with
  | none => simp
  | some t =>
      cases t with
      | reference _ => simp [isAlias, Token.source?]
      | synch _ => simp [isAlias, Token.source?]
      | constant _ => simp [isAlias, Token.source?]
      | function f =>
          cases f with
          | secondName =>
              cases hback : before? tokens i 3 with
              | none => simp [isAlias]
              | some t => cases t <;> simp [isAlias, Token.source?]
          | _ => simp [isAlias, Token.source?]

/-- The variable that the request at a position names, if there is one. -/
def wantedAt? (tokens : List Token) : Nat → Option Nat :=
  foundAt? isValueSynch (fun i => (targetAt tokens i).map some) tokens

/-- The variables to be synchronized, in order. -/
def wanted (tokens : List Token) : List Nat :=
  (List.range tokens.length).filterMap (wantedAt? tokens)

theorem wantedAt?_eq (h : tokens[i]? = some (.function .valueSynch)) :
    wantedAt? tokens i = (operandAt tokens i).bind Token.source? := by
  rw [wantedAt?, foundAt?, if_pos ((any_at_iff eq_valueSynch_iff).2 h)]
  cases hoperand : (operandAt tokens i).bind Token.source? with
  | some id => rw [targetAt_eq_ok_iff.2 hoperand]; rfl
  | none =>
      cases htarget : targetAt tokens i with
      | error fault => rfl
      | ok id => exact nomatch hoperand.symm.trans (targetAt_eq_ok_iff.1 htarget)

theorem wantedAt?_of_not_request (h : tokens[i]? ≠ some (.function .valueSynch)) :
    wantedAt? tokens i = none := by
  rw [wantedAt?, foundAt?, if_neg fun hany => h ((any_at_iff eq_valueSynch_iff).1 hany)]

theorem targets_eq_collect (tokens : List Token) :
    targets tokens = collect isValueSynch (fun i => (targetAt tokens i).map some) tokens := by
  rw [targets, collect]
  congr 1
  refine congrArg (fun f => (List.range tokens.length).mapM f) (funext fun i => ?_)
  cases tokens[i]? <;> rfl

/-- **Requests are collected exactly if each of them names a variable.** -/
theorem targets_eq_ok_iff {ids : List Nat} :
    targets tokens = .ok ids ↔
      (∀ i, tokens[i]? = some (.function .valueSynch) →
        ∃ id, (operandAt tokens i).bind Token.source? = some id) ∧ ids = wanted tokens := by
  rw [targets_eq_collect, collect_eq_ok_iff]
  refine and_congr_left' (forall_congr' fun i => ?_)
  rw [any_at_iff eq_valueSynch_iff]
  refine imp_congr_right fun _ => ⟨?_, ?_⟩
  · rintro ⟨y, hy⟩
    obtain ⟨id, hid, -⟩ := map_eq_ok hy
    exact ⟨id, targetAt_eq_ok_iff.1 hid⟩
  · rintro ⟨id, hid⟩
    exact ⟨some id, by rw [targetAt_eq_ok_iff.2 hid]; rfl⟩

/-- What aliases make of a sequence. -/
def redirected (table : VariableTable) (tokens : List Token) : List Token :=
  tokens.map (Token.redirect (resolve (pairs table tokens)))

/-- **Linking** redirects references by the aliases, and wraps those that are wanted then. -/
theorem link_eq {config : Configuration}
    (haliases : ∀ i, tokens[i]? = some (.function .secondName) → Accepted tokens i)
    (htargets : ∀ i, (redirected table tokens)[i]? = some (.function .valueSynch) →
      ∃ id, (operandAt (redirected table tokens) i).bind Token.source? = some id) :
    link config table tokens =
      ⟨(redirected table tokens).map (wrap config (wanted (redirected table tokens))),
        .ok (lastSynch?
          ((redirected table tokens).map (wrap config (wanted (redirected table tokens)))))⟩ := by
  rw [link, aliases_eq_ok_iff.2 ⟨haliases, rfl⟩]
  dsimp only
  rw [applyAliases_eq_map]
  rw [show tokens.map (Token.redirect (resolve (pairs table tokens))) = redirected table tokens
    from rfl, targets_eq_ok_iff.2 ⟨htargets, rfl⟩]

end Link

end Telemetry
