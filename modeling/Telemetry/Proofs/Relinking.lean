import Telemetry.Proofs.Rewrites

/-!
# Linking again

An expression that is linked while it is still being written is linked again later, over tokens
that have been replaced before.  `Link.Between` says what such tokens can look like: of those that
were appended only references have been replaced, each by a reference or by a synchronized variable
for a related variable (`Link.Kin`), and every synchronized variable that linking has made is still
asked for.  Appending, forgetting and linking again stay between (`Link.Between.link`).
-/

namespace Telemetry

namespace Token

theorem source?_of_bare {t u : Token} (h : u.bare = t.bare) : u.source? = t.source? := by
  have hbare : ∀ t : Token, t.bare.source? = t.source? := by
    intro t
    cases t <;> rfl
  rw [← hbare, h, hbare]

theorem redirect_of_not_reference {t : Token} (h : ∀ id, t ≠ .reference id) (f : Nat → Nat) :
    t.redirect f = t := by
  cases t with
  | reference id => exact absurd rfl (h id)
  | _ => rfl

end Token

namespace Link

variable {config : Configuration} {R : Nat → Nat → Prop} {t u v : Token}

/-- What linking can make of a token that was appended, by and by: a reference becomes a reference
to a related variable or a synchronized variable for one, and no other token is replaced. -/
inductive Kin (config : Configuration) (R : Nat → Nat → Prop) : Token → Token → Prop where
  | same {t u : Token} (ht : ∀ id, t ≠ .reference id) (hbare : u.bare = t.bare) : Kin config R t u
  | reference {id other : Nat} (h : R id other) : Kin config R (.reference id) (.reference other)
  | synch {id : Nat} {s : Synch} (h : R id s.source)
      (hmade : (Token.synch s).bare =
        (Token.synch (.empty s.source config.resolution config.historyLimit)).bare) :
      Kin config R (.reference id) (.synch s)

theorem Kin.refl (hR : ∀ id, R id id) (t : Token) : Kin config R t t := by
  cases t with
  | reference id => exact .reference (hR id)
  | _ => exact .same nofun rfl

theorem not_reference_of_bare (ht : ∀ id, t ≠ .reference id) (hbare : u.bare = t.bare) (id : Nat) :
    u ≠ .reference id := by
  rintro rfl
  exact ht id (Token.eq_of_bare rfl hbare.symm)

theorem Kin.redirect (h : Kin config R t u) {f : Nat → Nat}
    (hf : ∀ id other, R id other → R id (f other)) : Kin config R t (u.redirect f) := by
  cases h with
  | same ht hbare =>
      rw [Token.redirect_of_not_reference (not_reference_of_bare ht hbare)]
      exact .same ht hbare
  | reference h => exact .reference (hf _ _ h)
  | synch h hmade => exact .synch h hmade

theorem wrap_of_not_reference (h : ∀ id, t ≠ .reference id) (ids : List Nat) :
    wrap config ids t = t := by
  cases t with
  | reference id => exact absurd rfl (h id)
  | _ => rfl

theorem Kin.wrap (h : Kin config R t u) (ids : List Nat) :
    Kin config R t (Link.wrap config ids u) := by
  cases h with
  | same ht hbare =>
      rw [wrap_of_not_reference (not_reference_of_bare ht hbare)]
      exact .same ht hbare
  | reference h =>
      rw [Link.wrap]
      split
      · exact .synch h rfl
      · exact .reference h
  | synch h hmade => exact .synch h hmade

theorem Kin.of_bare (h : Kin config R t u) (hv : v.bare = u.bare) : Kin config R t v := by
  cases h with
  | same ht hbare => exact .same ht (hv.trans hbare)
  | reference h =>
      rw [Token.eq_of_bare rfl hv]
      exact .reference h
  | synch h hmade =>
      obtain ⟨s', rfl, hsource, -⟩ := Token.synch_of_bare hv
      refine .synch (hsource ▸ h) ?_
      rw [hv, hmade, hsource]

/-- What is neither replaced nor remembers anything stands where it was appended. -/
theorem Kin.eq_iff (h : Kin config R t u) (hv : v.isFixed = true)
    (hbare : ∀ w : Token, w.bare = v.bare → w = v) : u = v ↔ t = v := by
  cases h with
  | same ht hsame =>
      constructor
      · rintro rfl
        exact hbare t hsame.symm
      · rintro rfl
        exact hbare u hsame
  | reference | synch =>
      constructor <;>
      · rintro rfl
        cases hv

/-- What stands for a variable stands for one whatever linking makes of it. -/
theorem Kin.exists_variable (h : Kin config R t u) {id : Nat} (ht : t.source? = some id) :
    ∃ other, u.source? = some other := by
  cases h with
  | same _ hbare => exact ⟨id, by rw [Token.source?_of_bare hbare, ht]⟩
  | reference => exact ⟨_, rfl⟩
  | synch => exact ⟨_, rfl⟩

/-! ### Positions -/

section Positions

variable {raw cur : List Token} {i : Nat}

theorem before?_related (h : List.Forall₂ (Kin config R) raw cur) {back : Nat}
    (ht : before? raw i back = some t) : ∃ u, before? cur i back = some u ∧ Kin config R t u := by
  rw [before?] at ht ⊢
  split at ht
  · next hle =>
      rw [if_pos hle]
      exact related_at h ht
  · cases ht

/-- Aliases and requests stand where they were appended. -/
theorem getElem?_related_iff (h : List.Forall₂ (Kin config R) raw cur) (hv : v.isFixed = true)
    (hbare : ∀ w : Token, w.bare = v.bare → w = v) : cur[i]? = some v ↔ raw[i]? = some v := by
  constructor
  · intro hcur
    obtain ⟨t, ht, hkin⟩ := related_at h.flip hcur
    rw [ht, (hkin.eq_iff hv hbare).1 rfl]
  · intro hraw
    obtain ⟨u, hu, hkin⟩ := related_at h hraw
    rw [hu, (hkin.eq_iff hv hbare).2 rfl]

theorem alias_related_iff (h : List.Forall₂ (Kin config R) raw cur) :
    cur[i]? = some (.function .secondName) ↔ raw[i]? = some (.function .secondName) :=
  getElem?_related_iff h rfl fun _ => Token.eq_of_bare rfl

theorem request_related_iff (h : List.Forall₂ (Kin config R) raw cur) :
    cur[i]? = some (.function .valueSynch) ↔ raw[i]? = some (.function .valueSynch) :=
  getElem?_related_iff h rfl fun _ => Token.eq_of_bare rfl

theorem operandAt_related (h : List.Forall₂ (Kin config R) raw cur)
    (ht : operandAt raw i = some t) : ∃ u, operandAt cur i = some u ∧ Kin config R t u := by
  obtain ⟨t₁, ht₁, ht⟩ := Option.bind_eq_some_iff.1 ht
  obtain ⟨u₁, hu₁, hkin⟩ := before?_related h ht₁
  have halias : isAlias u₁ = isAlias t₁ := by
    rw [Bool.eq_iff_iff, eq_alias_iff, eq_alias_iff]
    exact hkin.eq_iff rfl fun _ => Token.eq_of_bare rfl
  rw [operandAt, hu₁, Option.bind_some, halias]
  split at ht
  · next hisAlias =>
      rw [if_pos hisAlias]
      exact before?_related h ht
  · next hnot =>
      rw [if_neg hnot]
      cases ht
      exact ⟨u₁, rfl, hkin⟩

theorem operandAt_map {f : Token → Token} (hf : ∀ t, isAlias (f t) = isAlias t)
    (tokens : List Token) (i : Nat) :
    operandAt (tokens.map f) i = (operandAt tokens i).map f := by
  rw [operandAt, operandAt, before?_map, before?_map]
  cases before? tokens i 1 with
  | none => rfl
  | some t =>
      rw [Option.map_some, Option.bind_some, Option.bind_some, hf]
      split <;> rfl

theorem operandAt_append {tokens more : List Token} (h : i < tokens.length) :
    operandAt (tokens ++ more) i = operandAt tokens i := by
  rw [operandAt, operandAt, before?_append h, before?_append h]

theorem operandAt_mem {tokens : List Token} (h : operandAt tokens i = some t) : t ∈ tokens := by
  obtain ⟨t₁, ht₁, ht⟩ := Option.bind_eq_some_iff.1 h
  split at ht
  · exact before?_mem ht
  · cases ht
    exact before?_mem ht₁

end Positions

/-! ### Synchronized variables that are asked for -/

/-- There is a request whose operand is a synchronized variable for a variable. -/
def Asked (tokens : List Token) (id : Nat) : Prop :=
  ∃ (j : Nat) (s : Synch), tokens[j]? = some (.function .valueSynch) ∧
    operandAt tokens j = some (.synch s) ∧ s.source = id

theorem isAlias_redirect (f : Nat → Nat) (t : Token) : isAlias (t.redirect f) = isAlias t := by
  cases t <;> rfl

theorem isAlias_wrap (ids : List Nat) (t : Token) : isAlias (wrap config ids t) = isAlias t := by
  cases t with
  | reference id =>
      rw [wrap]
      split <;> rfl
  | _ => rfl

theorem Asked.map {tokens : List Token} {id : Nat} (h : Asked tokens id) {f : Token → Token}
    (hf : ∀ t, (∀ id, t ≠ .reference id) → f t = t) (halias : ∀ t, isAlias (f t) = isAlias t) :
    Asked (tokens.map f) id := by
  obtain ⟨j, s, hj, hoperand, hsource⟩ := h
  refine ⟨j, s, ?_, ?_, hsource⟩
  · rw [List.getElem?_map, hj, Option.map_some, hf (.function .valueSynch) nofun]
  · rw [operandAt_map halias, hoperand, Option.map_some, hf (.synch s) nofun]

theorem Asked.append {tokens : List Token} {id : Nat} (h : Asked tokens id) (more : List Token) :
    Asked (tokens ++ more) id := by
  obtain ⟨j, s, hj, hoperand, hsource⟩ := h
  have hlt : j < tokens.length := (List.getElem?_eq_some_iff.1 hj).1
  refine ⟨j, s, ?_, ?_, hsource⟩
  · rw [List.getElem?_append_left hlt, hj]
  · rw [operandAt_append hlt, hoperand]

theorem Asked.of_bare {tokens us : List Token} {id : Nat} (h : Asked us id)
    (hbare : tokens.map Token.bare = us.map Token.bare) : Asked tokens id := by
  obtain ⟨j, s, hj, hoperand, rfl⟩ := h
  have halias : ∀ t : Token, isAlias t.bare = isAlias t := by
    intro t
    rw [Bool.eq_iff_iff, eq_alias_iff, eq_alias_iff]
    refine ⟨Token.eq_of_bare rfl, ?_⟩
    rintro rfl
    rfl
  have hat : (operandAt tokens j).map Token.bare = some (Token.synch s).bare := by
    rw [← operandAt_map halias, hbare, operandAt_map halias, hoperand]
    rfl
  obtain ⟨t, ht, hsame⟩ := Option.map_eq_some_iff.1 hat
  obtain ⟨s', rfl, hsource, -⟩ := Token.synch_of_bare hsame
  exact ⟨j, s', getElem?_of_bare hbare (fun _ => Token.eq_of_bare rfl) hj, ht, hsource⟩

/-! ### Between the tokens that were appended and those that linking has made of them -/

/-- What linking can make of tokens by and by. -/
structure Between (config : Configuration) (R : Nat → Nat → Prop) (raw cur : List Token) :
    Prop where
  kin : List.Forall₂ (Kin config R) raw cur
  asked : ∀ (i id : Nat) (s : Synch), raw[i]? = some (.reference id) →
    cur[i]? = some (.synch s) → Asked cur s.source

variable {raw cur : List Token}

theorem between_refl (hR : ∀ id, R id id) (tokens : List Token) :
    Between config R tokens tokens := by
  refine ⟨List.forall₂_same.2 fun t _ => Kin.refl hR t, fun i id s href hsynch => ?_⟩
  rw [href] at hsynch
  cases hsynch

theorem Between.append (h : Between config R raw cur) (hR : ∀ id, R id id) (t : Token) :
    Between config R (raw ++ [t]) (cur ++ [t]) := by
  have hlength : raw.length = cur.length := h.kin.length_eq
  refine ⟨List.rel_append h.kin (.cons (Kin.refl hR t) .nil), fun i id s hraw hcur => ?_⟩
  rcases Nat.lt_or_ge i raw.length with hlt | hge
  · rw [List.getElem?_append_left hlt] at hraw
    rw [List.getElem?_append_left (hlength ▸ hlt)] at hcur
    exact (h.asked i id s hraw hcur).append [t]
  · -- the token that is appended is no reference and a synchronized variable at once
    rw [List.getElem?_append_right hge] at hraw
    rw [List.getElem?_append_right (hlength ▸ hge), ← hlength, hraw] at hcur
    cases hcur

theorem Between.of_bare (h : Between config R raw cur) {next : List Token}
    (hbare : next.map Token.bare = cur.map Token.bare) : Between config R raw next := by
  constructor
  · have hkin := h.kin
    clear h
    induction hkin generalizing next with
    | nil =>
        rw [List.map_eq_nil_iff.1 hbare]
        exact .nil
    | cons hhead _ ih =>
        obtain ⟨v, rest, rfl, hv, hrest⟩ := List.map_eq_cons_iff.1 hbare
        exact .cons (hhead.of_bare hv) (ih hrest)
  · intro i id s hraw hnext
    obtain ⟨s', hcur, hsource, -⟩ := Expression.synch_at_of_bare hbare.symm hnext
    rw [← hsource]
    exact (h.asked i id s' hraw hcur).of_bare hbare

theorem Between.redirect (h : Between config R raw cur) {f : Nat → Nat}
    (hf : ∀ id other, R id other → R id (f other)) :
    Between config R raw (cur.map (Token.redirect f)) := by
  refine ⟨List.forall₂_map_right_iff.2 (h.kin.imp fun t u hkin => hkin.redirect hf),
    fun i id s hraw hmapped => ?_⟩
  rw [List.getElem?_map] at hmapped
  obtain ⟨u, hu, hsynch⟩ := Option.map_eq_some_iff.1 hmapped
  cases u with
  | synch s' =>
      cases hsynch
      exact (h.asked i id s hraw hu).map (fun t ht => Token.redirect_of_not_reference ht f)
        (isAlias_redirect f)
  | _ => cases hsynch

/-- What is wanted is asked for once it is wrapped. -/
theorem asked_of_wanted {tokens : List Token} {id : Nat} (h : id ∈ wanted tokens) :
    Asked (tokens.map (Link.wrap config (wanted tokens))) id := by
  obtain ⟨j, hj, hat⟩ := List.mem_filterMap.1 h
  by_cases hrequest : tokens[j]? = some (.function .valueSynch)
  · rw [wantedAt?_eq hrequest] at hat
    obtain ⟨v, hoperand, hvariable⟩ := Option.bind_eq_some_iff.1 hat
    have hafter : operandAt (tokens.map (Link.wrap config (wanted tokens))) j =
        some (Link.wrap config (wanted tokens) v) := by
      rw [operandAt_map (isAlias_wrap _), hoperand]
      rfl
    have hstays : (tokens.map (Link.wrap config (wanted tokens)))[j]? =
        some (.function .valueSynch) := by
      rw [List.getElem?_map, hrequest]
      rfl
    cases v with
    | reference other =>
        cases hvariable
        rw [Link.wrap, if_pos h] at hafter
        exact ⟨j, _, hstays, hafter, rfl⟩
    | synch s =>
        cases hvariable
        exact ⟨j, s, hstays, hafter, rfl⟩
    | _ => cases hvariable
  · rw [wantedAt?_of_not_request hrequest] at hat
    cases hat

/-- Wrapping what is wanted makes synchronized variables that are asked for. -/
theorem Between.wrap (h : Between config R raw cur) :
    Between config R raw (cur.map (Link.wrap config (wanted cur))) := by
  refine ⟨List.forall₂_map_right_iff.2 (h.kin.imp fun t u hkin => hkin.wrap _),
    fun i id s hraw hmapped => ?_⟩
  rw [List.getElem?_map] at hmapped
  obtain ⟨u, hu, hsynch⟩ := Option.map_eq_some_iff.1 hmapped
  cases u with
  | synch s' =>
      cases hsynch
      exact (h.asked i id s hraw hu).map (fun t ht => wrap_of_not_reference ht _)
        (isAlias_wrap _)
  | reference other =>
      rw [Link.wrap] at hsynch
      split at hsynch
      · next hwanted =>
          cases hsynch
          exact asked_of_wanted hwanted
      · cases hsynch
  | _ => cases hsynch

/-- **Linking again stays between**, as long as it redirects references to related variables. -/
theorem Between.link (h : Between config R raw cur) {table : VariableTable}
    (hclosed : ∀ found, aliases table cur = .ok found →
      ∀ id other, R id other → R id (resolve found other)) :
    Between config R raw (Link.link config table cur).tokens := by
  rw [Link.link]
  split
  · exact h
  · next found hfound =>
      dsimp only
      have hredirected : Between config R raw (applyAliases found cur) := by
        rw [applyAliases_eq_map]
        exact h.redirect (hclosed found hfound)
      split
      · exact hredirected
      · next ids hids =>
          rw [(targets_eq_ok_iff.1 hids).2]
          exact hredirected.wrap

end Link

end Telemetry
