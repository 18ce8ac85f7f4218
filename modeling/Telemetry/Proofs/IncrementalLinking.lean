import Mathlib.Tactic.IntervalCases
import Telemetry.Proofs.Relinking

/-!
# Incremental linking

An expression that is linked, set and evaluated while it is still being written, against one to
which the same tokens are appended first and that is then linked once.  The aliases of a part bind
what they bind in the whole, as far as their names are known already, so that linking in between
leaves a variable or makes of it what all aliases make of it (`Link.resolves_of_between`).  What
has been synchronized in between is still asked for, and so it is what linking once synchronizes
(`Link.link_of_between`).

Three things can get in the way.  An alias whose variable has been synchronized is refused when it
is linked again, although linking once accepts it (`Expression.relink_refused`).  An alias that is
given a placeholder of another alias binds what has become of it.  And a placeholder that has been
synchronized before its alias was appended is not replaced any more.  Without these both come to
the same (`Expression.relink_agrees`).
-/

namespace Telemetry

namespace Link

variable {config : Configuration} {R : Nat → Nat → Prop} {table known : VariableTable}
  {tokens raw cur : List Token} {i : Nat}

/-! ### The aliases of a part -/

/-- What linking can have made of the variables that were appended: they stay, or become what all
aliases make of them. -/
def Resolves (table : VariableTable) (raw : List Token) (id other : Nat) : Prop :=
  other = id ∨ other = resolve (pairs table raw) id

theorem before?_front {front : List Token} (h : front <+: raw) (hi : i < front.length)
    (back : Nat) : before? front i back = before? raw i back := by
  obtain ⟨more, rfl⟩ := h
  rw [before?_append hi]

/-- A variable that all aliases leave is left by linking again, or made a synchronized variable. -/
theorem Kin.eq_of_resolve {id other : Nat}
    (h : Kin config (Resolves table raw) (.reference id) (.reference other))
    (hstays : resolve (pairs table raw) id = id) : other = id := by
  cases h with
  | same ht _ => exact absurd rfl (ht id)
  | reference hresolves =>
      rcases hresolves with hsame | hreplaced
      · exact hsame
      · rw [hreplaced, hstays]

/-- An alias of a part binds what it binds in the whole, if its name is known there. -/
theorem pairAt?_of_between {front : List Token} (hfront : front <+: raw)
    (hnames : known.names <+: table.names) (hflat : Flat table raw)
    (h : Between config (Resolves table raw) front cur) (hi : i < cur.length)
    (hraw : ∀ i, raw[i]? = some (.function .secondName) → Accepted raw i)
    (hcur : ∀ i, cur[i]? = some (.function .secondName) → Accepted cur i) :
    pairAt? known cur i = (pairAt? table raw i).filter fun pair => decide (pair.1 < known.size) := by
  have hlt : i < front.length := by rwa [h.kin.length_eq]
  have hat : front[i]? = raw[i]? := by
    obtain ⟨more, rfl⟩ := hfront
    rw [List.getElem?_append_left hlt]
  by_cases halias : raw[i]? = some (.function .secondName)
  · have hcuralias : cur[i]? = some (.function .secondName) :=
      (alias_related_iff h.kin).2 (hat.trans halias)
    obtain ⟨target, name, time, htarget, hname⟩ := hraw i halias
    obtain ⟨target', name', time', htarget', hname'⟩ := hcur i hcuralias
    -- the operands of the alias are those that were appended, as its variable is not replaced
    have hsametarget : target' = target := by
      obtain ⟨u, hu, hkin⟩ := before?_related h.kin ((before?_front hfront hlt 2).trans htarget)
      rw [htarget'] at hu
      cases hu
      exact hkin.eq_of_resolve (resolve_of_not_mem (hflat i target halias htarget))
    have hsamename : Token.constant ⟨.text name', time'⟩ = .constant ⟨.text name, time⟩ := by
      obtain ⟨u, hu, hkin⟩ := before?_related h.kin ((before?_front hfront hlt 1).trans hname)
      rw [hname'] at hu
      cases hu
      exact (hkin.eq_iff rfl fun _ => Token.eq_of_bare rfl).2 rfl
    cases hsamename
    subst hsametarget
    rw [pairAt?_eq hcuralias htarget' hname', pairAt?_eq halias htarget hname,
      VariableTable.position?_of_more_names hnames]
    cases table.position? name with
    | none => rfl
    | some placeholder =>
        by_cases hknown : placeholder < known.size <;> by_cases hself : placeholder = target' <;>
          simp [Option.filter_some, hknown, hself]
  · have hcuralias : cur[i]? ≠ some (.function .secondName) := fun hcur =>
      halias (hat.symm.trans ((alias_related_iff h.kin).1 hcur))
    rw [pairAt?_of_not_alias halias, pairAt?_of_not_alias hcuralias]
    rfl

/-- The aliases of a part are those at the front of the whole whose names are known there. -/
theorem pairs_of_between {front : List Token} (hfront : front <+: raw)
    (hnames : known.names <+: table.names) (hflat : Flat table raw)
    (h : Between config (Resolves table raw) front cur)
    (hraw : ∀ i, raw[i]? = some (.function .secondName) → Accepted raw i)
    (hcur : ∀ i, cur[i]? = some (.function .secondName) → Accepted cur i) :
    pairs known cur = ((List.range cur.length).filterMap (pairAt? table raw)).filter
      fun pair => decide (pair.1 < known.size) := by
  rw [pairs, List.filter_filterMap]
  refine List.filterMap_congr fun i hi => ?_
  exact pairAt?_of_between hfront hnames hflat h (List.mem_range.1 hi) hraw hcur

/-- **The aliases of a part leave a variable or make of it what all aliases do.** -/
theorem resolves_of_between {front : List Token} (hfront : front <+: raw)
    (hnames : known.names <+: table.names) (hflat : Flat table raw)
    (h : Between config (Resolves table raw) front cur)
    (hraw : ∀ i, raw[i]? = some (.function .secondName) → Accepted raw i)
    (hcur : ∀ i, cur[i]? = some (.function .secondName) → Accepted cur i) {id other : Nat}
    (hresolves : Resolves table raw id other) :
    Resolves table raw id (resolve (pairs known cur) other) := by
  obtain ⟨more, hmore⟩ : ∃ more, pairs table raw =
      (List.range cur.length).filterMap (pairAt? table raw) ++ more := by
    have hlength : raw.length = cur.length + (raw.length - cur.length) := by
      rw [← h.kin.length_eq]
      exact (Nat.add_sub_of_le hfront.length_le).symm
    rw [pairs, hlength, List.range_add, List.filterMap_append]
    exact ⟨_, rfl⟩
  have hpart : ∀ other, resolve (pairs known cur) other = other ∨
      resolve (pairs known cur) other = resolve (pairs table raw) other := by
    intro other
    rw [pairs_of_between hfront hnames hflat h hraw hcur, hmore]
    exact resolve_filter (fun id => decide (id < known.size)) (hmore ▸ hflat.apart) other
  rcases hresolves with rfl | rfl
  · exact hpart other
  · right
    rcases hpart (resolve (pairs table raw) id) with hsame | hsame
    · exact hsame
    · rw [hsame, resolve_resolve hflat.apart]

/-- When the same names are known, the aliases are the same. -/
theorem pairs_eq_of_between (hnames : known.names = table.names) (hflat : Flat table raw)
    (h : Between config (Resolves table raw) raw cur)
    (hraw : ∀ i, raw[i]? = some (.function .secondName) → Accepted raw i)
    (hcur : ∀ i, cur[i]? = some (.function .secondName) → Accepted cur i) :
    pairs known cur = pairs table raw := by
  have hsize : known.size = table.size := by
    rw [← VariableTable.length_names, hnames, VariableTable.length_names]
  rw [pairs_of_between (List.prefix_refl raw) (hnames ▸ List.prefix_refl _) hflat h hraw hcur,
    ← h.kin.length_eq, hsize]
  exact List.filter_eq_self.2 fun pair hpair => decide_eq_true (alias_of_mem_pairs hpair).1

/-! ### Success -/

theorem request_redirect_iff (f : Nat → Nat) :
    (tokens.map (Token.redirect f))[i]? = some (.function .valueSynch) ↔
      tokens[i]? = some (.function .valueSynch) :=
  getElem?_map_iff fun _ => redirect_eq_iff f rfl

theorem operandAt_redirect (f : Nat → Nat) (tokens : List Token) (i : Nat) :
    operandAt (tokens.map (Token.redirect f)) i = (operandAt tokens i).map (Token.redirect f) :=
  operandAt_map (isAlias_redirect f) tokens i

/-- Every request has an operand that stands for a variable. -/
def Named (tokens : List Token) : Prop :=
  ∀ i, tokens[i]? = some (.function .valueSynch) →
    ∃ id, (operandAt tokens i).bind Token.source? = some id

theorem named_redirect_iff (f : Nat → Nat) :
    Named (tokens.map (Token.redirect f)) ↔ Named tokens := by
  refine forall_congr' fun i => ?_
  rw [request_redirect_iff, operandAt_redirect]
  refine imp_congr_right fun _ => ?_
  cases operandAt tokens i with
  | none => exact Iff.rfl
  | some t => cases t <;> simp [Token.redirect, Token.source?]

/-- A request that could be met when its operand was appended can be met whatever linking has made
of it. -/
theorem named_of_related (h : List.Forall₂ (Kin config R) raw cur) (hraw : Named raw) :
    Named cur := by
  intro i hi
  obtain ⟨id, hid⟩ := hraw i ((request_related_iff h).1 hi)
  obtain ⟨t, ht, hvariable⟩ := Option.bind_eq_some_iff.1 hid
  obtain ⟨u, hu, hkin⟩ := operandAt_related h ht
  rw [hu, Option.bind_some]
  exact hkin.exists_variable hvariable

/-- An alias that was accepted when it was appended is accepted unless its variable has been
synchronized. -/
theorem accepted_of_related (h : List.Forall₂ (Kin config R) raw cur)
    (hraw : ∀ i, raw[i]? = some (.function .secondName) → Accepted raw i)
    (hopen : ∀ i s, cur[i]? = some (.function .secondName) →
      before? cur i 2 ≠ some (.synch s)) :
    ∀ i, cur[i]? = some (.function .secondName) → Accepted cur i := by
  intro i hi
  obtain ⟨target, name, time, htarget, hname⟩ := hraw i ((alias_related_iff h).1 hi)
  obtain ⟨u, hu, hkin⟩ := before?_related h htarget
  obtain ⟨v, hv, hlabel⟩ := before?_related h hname
  obtain rfl := (hlabel.eq_iff rfl fun _ => Token.eq_of_bare rfl).2 rfl
  cases hkin with
  | same ht _ => exact absurd rfl (ht target)
  | reference _ => exact ⟨_, name, time, hu, hv⟩
  | synch _ _ => exact absurd hu (hopen i _ hi)

/-! ### Agreement -/

section Agreement

variable {t u : Token}

/-- Both stand for the same variable once all aliases are applied. -/
theorem Kin.source?_redirect (h : Kin config (Resolves table raw) t u) (hflat : Flat table raw)
    (hu : ∀ s, u = .synch s → ∀ pair ∈ pairs table raw, s.source ≠ pair.1) :
    (u.redirect (resolve (pairs table raw))).source? =
      (t.redirect (resolve (pairs table raw))).source? := by
  cases h with
  | same ht hbare =>
      rw [Token.redirect_of_not_reference (not_reference_of_bare ht hbare),
        Token.redirect_of_not_reference ht, Token.source?_of_bare hbare]
  | reference h =>
      rcases h with rfl | rfl
      · rfl
      · exact congrArg some (resolve_resolve hflat.apart _)
  | @synch id s h hmade =>
      refine congrArg some ?_
      rcases h with hsame | hreplaced
      · rw [← hsame, resolve_of_not_mem (hu s rfl)]
      · exact hreplaced

/-- Both become the same, up to what they remember. -/
theorem Kin.bare_wrap (h : Kin config (Resolves table raw) t u) (hflat : Flat table raw)
    (hu : ∀ s, u = .synch s → ∀ pair ∈ pairs table raw, s.source ≠ pair.1) {ids : List Nat}
    (hids : ∀ id s, t = .reference id → u = .synch s → s.source ∈ ids) :
    (Link.wrap config ids (u.redirect (resolve (pairs table raw)))).bare =
      (Link.wrap config ids (t.redirect (resolve (pairs table raw)))).bare := by
  have hvariable := h.source?_redirect hflat hu
  cases h with
  | same ht hbare =>
      have hu := not_reference_of_bare ht hbare
      rw [Token.redirect_of_not_reference hu, Token.redirect_of_not_reference ht,
        wrap_of_not_reference hu, wrap_of_not_reference ht, hbare]
  | reference h =>
      rw [Token.redirect, Token.redirect, Option.some.inj hvariable]
  | @synch id s h hmade =>
      have hsource : s.source = resolve (pairs table raw) id := Option.some.inj hvariable
      show (Token.synch s).bare = (Link.wrap config ids (.reference (resolve _ id))).bare
      rw [← hsource, Link.wrap, if_pos (hids id s rfl rfl)]
      exact hmade

/-- What is asked for is wanted, if the aliases leave it. -/
theorem mem_wanted_of_asked {id : Nat} (h : Asked tokens id) (f : Nat → Nat) :
    id ∈ wanted (tokens.map (Token.redirect f)) := by
  obtain ⟨j, s, hj, hoperand, hsource⟩ := h
  refine List.mem_filterMap.2 ⟨j, ?_, ?_⟩
  · rw [List.length_map]
    exact List.mem_range.2 (List.getElem?_eq_some_iff.1 hj).1
  · rw [wantedAt?_eq ((request_redirect_iff f).2 hj), operandAt_redirect, hoperand, ← hsource]
    rfl

/-- The same variables are wanted in both. -/
theorem wanted_of_related (h : List.Forall₂ (Kin config (Resolves table raw)) raw cur)
    (hpairs : pairs known cur = pairs table raw) (hflat : Flat table raw) (hnamed : Named raw)
    (hapart : ∀ s ∈ synchs cur, ∀ pair ∈ pairs table raw, s.source ≠ pair.1) :
    wanted (redirected known cur) = wanted (redirected table raw) := by
  rw [wanted, wanted, redirected, redirected, hpairs, List.length_map, List.length_map,
    h.length_eq]
  refine List.filterMap_congr fun i _ => ?_
  by_cases hrequest : raw[i]? = some (.function .valueSynch)
  · have hrequest' := (request_related_iff h).2 hrequest
    rw [wantedAt?_eq ((request_redirect_iff _).2 hrequest),
      wantedAt?_eq ((request_redirect_iff _).2 hrequest'), operandAt_redirect,
      operandAt_redirect]
    obtain ⟨id, hid⟩ := hnamed i hrequest
    obtain ⟨t, ht, -⟩ := Option.bind_eq_some_iff.1 hid
    obtain ⟨u, hu, hkin⟩ := operandAt_related h ht
    rw [ht, hu]
    refine hkin.source?_redirect hflat ?_
    rintro s rfl
    exact hapart s (mem_synchs.2 (operandAt_mem hu))
  · have hrequest' := fun hcur => hrequest ((request_related_iff h).1 hcur)
    rw [wantedAt?_of_not_request (fun hraw => hrequest ((request_redirect_iff _).1 hraw)),
      wantedAt?_of_not_request (fun hcur => hrequest' ((request_redirect_iff _).1 hcur))]

/-- **Linking what linking has made comes to the same as linking what was appended.** -/
theorem link_of_between (hnames : known.names = table.names) (hflat : Flat table raw)
    (h : Between config (Resolves table raw) raw cur)
    (hraw : ∀ i, raw[i]? = some (.function .secondName) → Accepted raw i) (hnamed : Named raw)
    (hcur : ∀ i, cur[i]? = some (.function .secondName) → Accepted cur i)
    (hapart : ∀ s ∈ synchs cur, ∀ pair ∈ pairs table raw, s.source ≠ pair.1) :
    (link config known cur).tokens.map Token.bare =
      (link config table raw).tokens.map Token.bare := by
  have hpairs : pairs known cur = pairs table raw := pairs_eq_of_between hnames hflat h hraw hcur
  have hwanted := wanted_of_related h.kin hpairs hflat hnamed hapart
  rw [link_eq hcur ((named_redirect_iff _).2 (named_of_related h.kin hnamed)),
    link_eq hraw ((named_redirect_iff _).2 hnamed), hwanted]
  show (((redirected known cur).map _).map Token.bare) =
    (((redirected table raw).map _).map Token.bare)
  rw [redirected, redirected, hpairs, List.map_map, List.map_map, List.map_map, List.map_map]
  refine List.ext_getElem? fun i => ?_
  rw [List.getElem?_map, List.getElem?_map]
  cases hat : raw[i]? with
  | none =>
      have hlength : cur.length ≤ i := h.kin.length_eq ▸ List.getElem?_eq_none_iff.1 hat
      rw [List.getElem?_eq_none_iff.2 hlength]
  | some t =>
      obtain ⟨u, hu, hkin⟩ := related_at h.kin hat
      rw [hu]
      refine congrArg some (hkin.bare_wrap hflat ?_ ?_)
      · rintro s rfl
        exact hapart s (mem_synchs.2 (List.mem_of_getElem? hu))
      · -- what is synchronized already is asked for, and so it is wanted
        rintro id s rfl rfl
        show s.source ∈ wanted (redirected table raw)
        rw [← hwanted]
        exact mem_wanted_of_asked (h.asked i id s hat hu) _

end Agreement

/-- A sequence that linking accepts. -/
theorem of_link_ok {last : Option Nat} (h : (link config table tokens).outcome = .ok last) :
    (∀ i, tokens[i]? = some (.function .secondName) → Accepted tokens i) ∧ Named tokens := by
  rw [link] at h
  split at h
  · cases h
  · next found hfound =>
      dsimp only at h
      split at h
      · cases h
      · next ids hids =>
          rw [applyAliases_eq_map] at hids
          exact ⟨(aliases_eq_ok_iff.1 hfound).1,
            (named_redirect_iff _).1 (targets_eq_ok_iff.1 hids).1⟩

end Link

namespace Expression

variable {start e : Expression} {as : List Act}

/-- Linking succeeds exactly if every alias and every request is accepted. -/
theorem link_eq_ok_iff (h : e.linked = false) :
    e.link.2 = .ok () ↔
      (∀ i, e.tokens[i]? = some (.function .secondName) → Link.Accepted e.tokens i) ∧
        Link.Named e.tokens := by
  rw [link, h]
  dsimp only
  rw [if_neg Bool.false_ne_true]
  constructor
  · intro hok
    split at hok
    · next last hlast => exact Link.of_link_ok hlast
    · cases hok
  · rintro ⟨haccepted, hnamed⟩
    rw [Link.link_eq haccepted ((Link.named_redirect_iff _).2 hnamed)]

/-! ### Histories of writing and linking -/

theorem linked_pushes (hstart : start.linked = false) (has : ∀ a ∈ as, a.isPush = true) :
    (start.acts as).linked = false := by
  induction as generalizing start with
  | nil => exact hstart
  | cons a as ih =>
      refine ih ?_ fun b hb => has b (List.mem_cons_of_mem a hb)
      have ha := has a List.mem_cons_self
      cases a with
      | push t => rfl
      | refer name => rfl
      | link => cases ha
      | call c => cases ha

theorem tokens_prefix_pushes (has : ∀ a ∈ as, a.isPush = true) :
    start.tokens <+: (start.acts as).tokens := by
  induction as generalizing start with
  | nil => exact List.prefix_refl _
  | cons a as ih =>
      refine List.IsPrefix.trans ?_ (ih fun b hb => has b (List.mem_cons_of_mem a hb))
      have ha := has a List.mem_cons_self
      cases a with
      | push t => exact List.prefix_append _ _
      | refer name => exact List.prefix_append _ _
      | link => cases ha
      | call c => cases ha

theorem tokens_refer (e : Expression) (name : String) :
    (e.act (.refer name)).tokens = e.tokens ++ [.reference (e.table.intern name).1] := rfl

theorem isPush_of_mem_filter {a : Act} (h : a ∈ as.filter Act.isPush) : a.isPush = true :=
  (List.mem_filter.1 h).2

theorem between_link {R : Nat → Nat → Prop} {raw : List Token}
    (h : Link.Between e.config R raw e.tokens)
    (hclosed : ∀ found, Link.aliases e.table e.tokens = .ok found →
      ∀ id other, R id other → R id (Link.resolve found other)) :
    Link.Between e.config R raw e.link.1.tokens := by
  rw [tokens_link]
  split
  · exact h
  · exact h.link hclosed

/-- **Writing and linking in any order stays between**, as long as every linking on the way
redirects references to related variables. -/
theorem between_acts {R : Nat → Nat → Prop} (hR : ∀ id, R id id)
    (hclosed : ∀ front, front <+: as →
      Link.Between start.config R (start.acts (front.filter Act.isPush)).tokens
        (start.acts front).tokens →
      ∀ found, Link.aliases (start.acts front).table (start.acts front).tokens = .ok found →
        ∀ id other, R id other → R id (Link.resolve found other)) :
    Link.Between start.config R (start.acts (as.filter Act.isPush)).tokens
      (start.acts as).tokens := by
  induction as using List.reverseRecOn with
  | nil => exact Link.between_refl hR start.tokens
  | append_singleton as a ih =>
      have hbefore := ih fun front hfront => hclosed front (hfront.trans (List.prefix_append as [a]))
      have hlink : Link.Between start.config R (start.acts (as.filter Act.isPush)).tokens
          (start.acts as).link.1.tokens := by
        have hconfig := start.config_acts as
        rw [← hconfig] at hbefore ⊢
        exact between_link hbefore (hclosed as (List.prefix_append as [a]) (hconfig ▸ hbefore))
      rw [List.filter_append, acts_concat]
      cases a with
      | push t =>
          rw [show [Act.push t].filter Act.isPush = [.push t] from rfl, acts_concat]
          exact hbefore.append hR t
      | refer name =>
          rw [show [Act.refer name].filter Act.isPush = [.refer name] from rfl, acts_concat]
          have hnames : (start.acts as).table.names =
              (start.acts (as.filter Act.isPush)).table.names := names_acts_pushes rfl as
          have hid := (VariableTable.intern_congr hnames name).1
          rw [tokens_refer, tokens_refer, hid]
          exact hbefore.append hR _
      | link =>
          rw [show [Act.link].filter Act.isPush = [] from rfl, List.append_nil]
          exact hlink
      | call c =>
          rw [show [Act.call c].filter Act.isPush = [] from rfl, List.append_nil]
          cases c with
          | set name sample =>
              rw [act, call_set]
              exact hbefore
          | evaluate =>
              rw [act, call]
              rcases (start.acts as).evaluate_fst with heq | ⟨-, heq⟩
              · rw [heq]
                exact hlink
              · rw [heq]
                exact hlink.of_bare (start.acts as).link.1.map_bare_kept

/-- Whether two expressions are linked alike and have the same tokens, up to what they remember. -/
structure Alike (e f : Expression) : Prop where
  linked : e.linked = f.linked
  tokens : e.tokens.map Token.bare = f.tokens.map Token.bare
  lastSynch : e.lastSynch = f.lastSynch

theorem Alike.trans {f g : Expression} (h : e.Alike f) (h' : f.Alike g) : e.Alike g :=
  ⟨h.linked.trans h'.linked, h.tokens.trans h'.tokens, h.lastSynch.trans h'.lastSynch⟩

/-- An act that appends nothing leaves the tokens, or links them. -/
theorem act_alike {a : Act} (ha : a.isPush = false) :
    (e.act a).Alike e ∨ (e.act a).Alike e.link.1 := by
  cases a with
  | push t => cases ha
  | refer name => cases ha
  | link => exact Or.inr ⟨rfl, rfl, rfl⟩
  | call c =>
      cases c with
      | set name sample =>
          rw [act, call_set]
          exact Or.inl ⟨rfl, rfl, rfl⟩
      | evaluate =>
          rw [act, call]
          rcases e.evaluate_fst with heq | ⟨-, heq⟩
          · rw [heq]
            exact Or.inr ⟨rfl, rfl, rfl⟩
          · rw [heq]
            exact Or.inr ⟨rfl, e.link.1.map_bare_kept, rfl⟩

theorem link_of_linked (h : e.linked = true) : e.link = (e, .ok ()) := by
  rw [link, if_pos h]

/-- Linking that leaves a linked expression has succeeded. -/
theorem ok_of_linked_link (h : e.link.1.linked = true) : e.link.2 = .ok () := by
  by_cases hold : e.linked = true
  · rw [link_of_linked hold]
  · rw [link, if_neg hold] at h ⊢
    dsimp only at h ⊢
    split at h
    · rfl
    · exact absurd h hold

/-- A linked expression was linked when the last token had been appended, and nothing has been
replaced since. -/
theorem exists_last_link (hstart : start.linked = false) (h : (start.acts as).linked = true) :
    ∃ front rest, as = front ++ rest ∧ (∀ a ∈ rest, a.isPush = false) ∧
      (start.acts front).linked = false ∧ (start.acts front).link.2 = .ok () ∧
      (start.acts as).Alike (start.acts front).link.1 := by
  induction as using List.reverseRecOn with
  | nil => cases hstart.symm.trans h
  | append_singleton as a ih =>
      rw [acts_concat] at h ⊢
      have ha : a.isPush = false := by
        cases a with
        | push t => cases h
        | refer name => cases h
        | link => rfl
        | call c => rfl
      by_cases hbefore : (start.acts as).linked = true
      · have hsame : ((start.acts as).act a).Alike (start.acts as) := by
          rcases act_alike (e := start.acts as) ha with hsame | hlink
          · exact hsame
          · rwa [link_of_linked hbefore] at hlink
        obtain ⟨front, rest, rfl, hrest, hfront, hok, halike⟩ := ih hbefore
        refine ⟨front, rest ++ [a], List.append_assoc .., fun b hb => ?_, hfront, hok,
          hsame.trans halike⟩
        rcases List.mem_append.1 hb with hb | hb
        · exact hrest b hb
        · rw [List.mem_singleton.1 hb, ha]
      · rcases act_alike (e := start.acts as) ha with hsame | hlink
        · exact absurd (hsame.linked.symm.trans h) hbefore
        · refine ⟨as, [a], rfl, fun b hb => ?_, Bool.eq_false_iff.2 hbefore,
            ok_of_linked_link (hlink.linked.symm.trans h), hlink⟩
          rw [List.mem_singleton.1 hb, ha]

/-! ### Agreement -/

section Agreement

variable {once : Expression}

theorem names_eq_once (honce : start.acts (as.filter Act.isPush) = once) :
    (start.acts as).table.names = once.table.names := by
  rw [← honce]
  exact names_acts_pushes rfl as

/-- What is written at some point is at the front of all that is written. -/
theorem prefix_once (honce : start.acts (as.filter Act.isPush) = once) {front : List Act}
    (hfront : front <+: as) :
    (start.acts (front.filter Act.isPush)).tokens <+: once.tokens ∧
      (start.acts front).table.names <+: once.table.names := by
  obtain ⟨rest, rfl⟩ := hfront
  rw [← honce, List.filter_append, acts_append]
  refine ⟨tokens_prefix_pushes fun a => isPush_of_mem_filter, ?_⟩
  rw [show (start.acts front).table.names = (start.acts (front.filter Act.isPush)).table.names from
    names_acts_pushes rfl front]
  exact names_prefix_acts _ _

theorem linked_once (hstart : start.linked = false)
    (honce : start.acts (as.filter Act.isPush) = once) : once.linked = false := by
  rw [← honce]
  exact linked_pushes hstart fun a => isPush_of_mem_filter

/-- Linking again succeeds unless the variable of an alias has been synchronized. -/
theorem relink_eq_ok_iff (hstart : start.linked = false)
    (honce : start.acts (as.filter Act.isPush) = once) (he : start.acts as = e)
    (hlink : once.link.2 = .ok ()) :
    e.link.2 = .ok () ↔ e.linked = true ∨ ∀ i s, e.tokens[i]? = some (.function .secondName) →
      Link.before? e.tokens i 2 ≠ some (.synch s) := by
  cases hlinked : e.linked with
  | true =>
      rw [link_of_linked hlinked]
      exact ⟨fun _ => Or.inl rfl, fun _ => rfl⟩
  | false =>
      obtain ⟨haccepted, hnamed⟩ := (link_eq_ok_iff (linked_once hstart honce)).1 hlink
      have hbetween : Link.Between start.config (fun _ _ => True) once.tokens e.tokens := by
        rw [← honce, ← he]
        exact between_acts (fun _ => trivial) fun _ _ _ _ _ _ _ _ => trivial
      rw [link_eq_ok_iff hlinked]
      constructor
      · rintro ⟨hcur, -⟩
        refine Or.inr fun i s hi hs => ?_
        obtain ⟨target, -, -, htarget, -⟩ := hcur i hi
        cases htarget.symm.trans hs
      · rintro (hfalse | hopen)
        · cases hfalse
        · exact ⟨Link.accepted_of_related hbetween.kin haccepted hopen,
            Link.named_of_related hbetween.kin hnamed⟩

/-- When nothing gets in the way, linking again makes of the tokens what linking once makes. -/
theorem link_agrees_of_unlinked (hstart : start.linked = false)
    (honce : start.acts (as.filter Act.isPush) = once) (he : start.acts as = e)
    (hlink : once.link.2 = .ok ()) (hflat : Link.Flat once.table once.tokens)
    (hunlinked : e.linked = false) (hok : e.link.2 = .ok ())
    (hapart : ∀ s ∈ synchs e.tokens, ∀ pair ∈ Link.pairs once.table once.tokens,
      s.source ≠ pair.1) :
    e.link.1.tokens.map Token.bare = once.link.1.tokens.map Token.bare ∧
      e.link.1.lastSynch = once.link.1.lastSynch := by
  have honcelinked := linked_once hstart honce
  obtain ⟨haccepted, hnamed⟩ := (link_eq_ok_iff honcelinked).1 hlink
  obtain ⟨hcur, -⟩ := (link_eq_ok_iff hunlinked).1 hok
  have hbetween : Link.Between start.config (Link.Resolves once.table once.tokens) once.tokens
      e.tokens := by
    have hall : Link.Between start.config (Link.Resolves once.table once.tokens)
        (start.acts (as.filter Act.isPush)).tokens (start.acts as).tokens := by
      refine between_acts (fun _ => Or.inl rfl) ?_
      intro front hfront hbetween found hfound id other hresolves
      obtain ⟨htokens, hnames⟩ := prefix_once honce hfront
      obtain ⟨hfrontcur, rfl⟩ := Link.aliases_eq_ok_iff.1 hfound
      exact Link.resolves_of_between htokens hnames hflat hbetween haccepted hfrontcur hresolves
    rwa [honce, he] at hall
  have hnames : e.table.names = once.table.names := he ▸ names_eq_once honce
  have hconfig : start.config = once.config := by rw [← honce, config_acts]
  have hconfig' : e.config = once.config := by rw [← he, config_acts, hconfig]
  have htokens : e.link.1.tokens.map Token.bare = once.link.1.tokens.map Token.bare := by
    rw [tokens_link, tokens_link, if_neg (Bool.eq_false_iff.1 hunlinked),
      if_neg (Bool.eq_false_iff.1 honcelinked), hconfig']
    exact Link.link_of_between hnames hflat (hconfig ▸ hbetween) haccepted hnamed hcur hapart
  refine ⟨htokens, ?_⟩
  rw [(isLinked_link hunlinked hok).last, (isLinked_link honcelinked hlink).last,
    Link.lastSynch?_congr htokens]

/-- **Incremental linking.**  Let tokens be appended to an expression that is not linked, and let
it also be linked, set and evaluated in between, as often as the host likes; and let linking
succeed when all tokens are appended first.

Then linking at the end fails if and only if the variable of an alias has been synchronized in
between and something has been appended since.  When it succeeds, no alias is given a variable that
is replaced itself, and nothing is synchronized that an alias replaces, it comes to what linking
once does: the same tokens up to what they remember, and the same last synchronized variable. -/
theorem relink_agrees (hstart : start.linked = false)
    (honce : start.acts (as.filter Act.isPush) = once) (he : start.acts as = e)
    (hlink : once.link.2 = .ok ()) :
    (e.link.2 = .ok () ↔ e.linked = true ∨ ∀ i s, e.tokens[i]? = some (.function .secondName) →
      Link.before? e.tokens i 2 ≠ some (.synch s)) ∧
    (e.link.2 = .ok () → Link.Flat once.table once.tokens →
      (∀ s ∈ synchs e.tokens, ∀ pair ∈ Link.pairs once.table once.tokens, s.source ≠ pair.1) →
      e.link.1.tokens.map Token.bare = once.link.1.tokens.map Token.bare ∧
        e.link.1.lastSynch = once.link.1.lastSynch) := by
  refine ⟨relink_eq_ok_iff hstart honce he hlink, fun hok hflat hapart => ?_⟩
  cases hlinked : e.linked with
  | false => exact link_agrees_of_unlinked hstart honce he hlink hflat hlinked hok hapart
  | true =>
      subst he
      obtain ⟨front, rest, rfl, hrest, hunlinked, hfront, halike⟩ :=
        exists_last_link hstart hlinked
      have honce' : start.acts (front.filter Act.isPush) = once := by
        have hnone : rest.filter Act.isPush = [] :=
          List.filter_eq_nil_iff.2 fun a ha => Bool.eq_false_iff.1 (hrest a ha)
        rw [← honce, List.filter_append, hnone, List.append_nil]
      -- what is synchronized before the last linking still is
      obtain ⟨htokens, hlast⟩ := link_agrees_of_unlinked hstart honce' rfl hlink hflat hunlinked
        hfront fun s hs => by
          obtain ⟨s', hs', hsource, -⟩ := exists_synch_acts hs rest
          rw [← acts_append] at hs'
          exact hsource ▸ hapart s' hs'
      rw [link_of_linked hlinked]
      exact ⟨halike.tokens.trans htokens, halike.lastSynch.trans hlast⟩

/-- Two variables with an alias and a request, linked and evaluated while they are written. -/
def steppedActs : List Act :=
  [.refer "A", .push (.constant (.constant (.text "P"))), .push (.function .secondName), .link,
    .refer "B", .push (.function .valueSynch), .call .evaluate, .refer "P",
    .push (.function (.operator (.arithmetic .add))),
    .push (.function (.operator (.arithmetic .add)))]

/-- The example comes to what linking once does. -/
theorem relink_stepped :
    (({} : Expression).acts (steppedActs.filter Act.isPush)).link.2 = .ok () ∧
      (({} : Expression).acts steppedActs).link.2 = .ok () ∧
      (({} : Expression).acts steppedActs).link.1.tokens.map Token.bare =
        (({} : Expression).acts (steppedActs.filter Act.isPush)).link.1.tokens.map Token.bare ∧
      (({} : Expression).acts steppedActs).link.1.lastSynch =
        (({} : Expression).acts (steppedActs.filter Act.isPush)).link.1.lastSynch := by
  have honce : (({} : Expression).acts (steppedActs.filter Act.isPush)).link.2 = .ok () := rfl
  have hok : (({} : Expression).acts steppedActs).link.2 = .ok () := rfl
  have htokens : (({} : Expression).acts (steppedActs.filter Act.isPush)).tokens =
      [.reference 0, .constant (.constant (.text "P")), .function .secondName, .reference 1,
        .function .valueSynch, .reference 2, .function (.operator (.arithmetic .add)),
        .function (.operator (.arithmetic .add))] := rfl
  have hpairs : Link.pairs (({} : Expression).acts (steppedActs.filter Act.isPush)).table
      (({} : Expression).acts (steppedActs.filter Act.isPush)).tokens = [(2, 0)] := by decide +kernel
  have hsynchs : (synchs (({} : Expression).acts steppedActs).tokens).map Synch.source = [1] := by
    decide +kernel
  refine ⟨honce, hok, (relink_agrees rfl rfl rfl honce).2 hok ?_ ?_⟩
  · intro i target halias htarget pair hpair
    rw [hpairs, List.mem_singleton] at hpair
    rw [htokens] at halias htarget
    -- the one alias stands at the third place
    have hlt : i < 8 := (List.getElem?_eq_some_iff.1 halias).1
    have hi : i = 2 := by interval_cases i <;> first | rfl | cases halias
    subst hi
    cases htarget
    rw [hpair]
    decide
  · intro s hs pair hpair
    have hsource := List.mem_map_of_mem (f := Synch.source) hs
    rw [hsynchs, List.mem_singleton] at hsource
    rw [hpairs, List.mem_singleton] at hpair
    rw [hsource, hpair]
    decide

/-- A synchronized variable has a second name, and something is appended once it is linked. -/
def extendedActs : List Act :=
  [.refer "A", .push (.constant (.constant (.text "B"))), .push (.function .secondName),
    .push (.function .valueSynch), .link, .push (.constant (.constant (.int 1))),
    .push (.function (.operator (.arithmetic .add)))]

/-- All that is linked on the way is accepted, and so is the whole if it is linked once; but
linking at the end is refused. -/
theorem relink_refused :
    (({} : Expression).acts (extendedActs.take 4)).link.2 = .ok () ∧
      (({} : Expression).acts (extendedActs.filter Act.isPush)).link.2 = .ok () ∧
      (({} : Expression).acts extendedActs).link.2 =
        .error (.invalidLink "Alias" "first operand must be a variable") :=
  ⟨rfl, rfl, rfl⟩

end Agreement

end Expression

end Telemetry
