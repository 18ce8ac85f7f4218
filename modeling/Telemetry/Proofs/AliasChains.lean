import Mathlib.Data.Finset.Card
import Mathlib.Logic.Relation
import Telemetry.Proofs.LinkedTokens

/-!
# Chains of aliases

An alias may be given a variable that another alias replaces itself, and so on: a chain leads from
a placeholder through others to a variable that no alias replaces (`Link.Leads`).  Linking applies
the aliases one after the other, each once and as it was written.  It follows a chain as long as
its links stand in the order in which they are followed, and so it comes to the end of the chain
if and only if all of them stand in this order (`Link.chains_resolved`).  Otherwise it stops at a
placeholder (`Link.placeholder_remains`).
-/

namespace Telemetry.Link

/-! ### Following links -/

/-- Links that lead from one variable to another, each from where the one before it ends. -/
inductive Leads : Nat → List (Nat × Nat) → Nat → Prop where
  | here (id : Nat) : Leads id [] id
  | link {id next final : Nat} {path : List (Nat × Nat)} (rest : Leads next path final) :
      Leads id ((id, next) :: path) final

section Links

variable {links path front : List (Nat × Nat)} {id now final : Nat}

/-- Replacing placeholders one after the other follows links in the order of the list. -/
theorem exists_leads_resolve (links : List (Nat × Nat)) (id : Nat) :
    ∃ path, path.Sublist links ∧ Leads id path (resolve links id) := by
  induction links generalizing id with
  | nil => exact ⟨[], List.Sublist.refl [], .here id⟩
  | cons pair links ih =>
      rw [resolve_cons]
      split
      · next hsame =>
          subst hsame
          obtain ⟨path, hpath, hleads⟩ := ih pair.2
          exact ⟨pair :: path, hpath.cons_cons pair, .link hleads⟩
      · obtain ⟨path, hpath, hleads⟩ := ih id
        exact ⟨path, hpath.cons pair, hleads⟩

/-- Where every placeholder is bound to one variable, links go on as a chain does that comes to an
end. -/
theorem Leads.continues (hsingle : ∀ p t u, (p, t) ∈ links → (p, u) ∈ links → t = u)
    (hfront : ∀ link ∈ front, link ∈ links) (hpath : ∀ link ∈ path, link ∈ links)
    (hfinal : ∀ t, (final, t) ∉ links) (h : Leads id front now) (h' : Leads id path final) :
    ∃ more, path = front ++ more ∧ Leads now more final := by
  induction h generalizing path with
  | here => exact ⟨path, rfl, h'⟩
  | @link id next _ front _ ih =>
      have hnext : (id, next) ∈ links := hfront _ List.mem_cons_self
      cases h' with
      | here => exact absurd hnext (hfinal next)
      | @link _ other _ path rest =>
          obtain rfl := hsingle id next other hnext (hpath _ List.mem_cons_self)
          have hfront' : ∀ link ∈ front, link ∈ links := fun link hlink =>
            hfront link (List.mem_cons_of_mem _ hlink)
          have hpath' : ∀ link ∈ path, link ∈ links := fun link hlink =>
            hpath link (List.mem_cons_of_mem _ hlink)
          obtain ⟨more, rfl, hmore⟩ := ih hfront' hpath' rest
          exact ⟨more, rfl, hmore⟩

/-- A chain whose links stand in order is followed to its end. -/
theorem resolve_of_sublist (hsingle : ∀ p t u, (p, t) ∈ links → (p, u) ∈ links → t = u)
    (hfinal : ∀ t, (final, t) ∉ links) (h : Leads id path final) (hpath : path.Sublist links) :
    resolve links id = final := by
  induction links generalizing id path with
  | nil =>
      cases List.sublist_nil.1 hpath
      cases h
      rfl
  | cons pair links ih =>
      have hsingle' : ∀ p t u, (p, t) ∈ links → (p, u) ∈ links → t = u := fun p t u ht hu =>
        hsingle p t u (List.mem_cons_of_mem pair ht) (List.mem_cons_of_mem pair hu)
      have hfinal' : ∀ t, (final, t) ∉ links := fun t ht =>
        hfinal t (List.mem_cons_of_mem pair ht)
      rw [resolve_cons]
      cases h with
      | here =>
          have hother : final ≠ pair.1 := by
            rintro rfl
            exact hfinal pair.2 List.mem_cons_self
          rw [if_neg hother]
          exact ih hsingle' hfinal' (.here final) (List.nil_sublist links)
      | @link _ next _ path rest =>
          split
          · next hsame =>
              subst hsame
              -- the first alias of the placeholder is as good as the one on the chain
              obtain rfl := hsingle pair.1 next pair.2 (hpath.subset List.mem_cons_self)
                List.mem_cons_self
              exact ih hsingle' hfinal' rest (List.cons_sublist_cons.1 hpath)
          · next hother =>
              refine ih hsingle' hfinal' (.link rest) ?_
              cases hpath with
              | cons _ hpath => exact hpath
              | cons_cons => exact absurd rfl hother

/-- **Without a cycle every chain comes to an end.** -/
theorem exists_leads_of_acyclic
    (hacyclic : ∀ p, ¬ Relation.TransGen (fun a b => (a, b) ∈ links) p p) (id : Nat) :
    ∃ path final, Leads id path final ∧ (∀ link ∈ path, link ∈ links) ∧
      ∀ t, (final, t) ∉ links := by
  classical
  -- one placeholder less is ahead with every link that is followed
  let ahead : Nat → Finset Nat := fun id => (links.map Prod.fst).toFinset.filter
    fun p => Relation.ReflTransGen (fun a b => (a, b) ∈ links) id p
  induction hcount : (ahead id).card using Nat.strong_induction_on generalizing id with
  | _ count ih =>
      by_cases hend : ∀ t, (id, t) ∉ links
      · exact ⟨[], id, .here id, nofun, hend⟩
      · obtain ⟨next, hnext⟩ := not_forall_not.1 hend
        have hless : (ahead next).card < (ahead id).card := by
          refine Finset.card_lt_card (Finset.ssubset_iff_of_subset ?_ |>.2 ⟨id, ?_, ?_⟩)
          · intro p hp
            obtain ⟨hlisted, hreach⟩ := Finset.mem_filter.1 hp
            exact Finset.mem_filter.2 ⟨hlisted, .head hnext hreach⟩
          · exact Finset.mem_filter.2
              ⟨List.mem_toFinset.2 (List.mem_map_of_mem (f := Prod.fst) hnext), .refl⟩
          · intro hback
            exact hacyclic id (.head' hnext (Finset.mem_filter.1 hback).2)
        obtain ⟨path, final, hleads, hpath, hfinal⟩ := ih _ (hcount ▸ hless) next rfl
        refine ⟨(id, next) :: path, final, .link hleads, fun link hlink => ?_, hfinal⟩
        rcases List.mem_cons.1 hlink with rfl | hlink
        · exact hnext
        · exact hpath link hlink

/-- When every alias stands in front of those that bind its variable, no placeholder is left. -/
theorem resolve_not_bound (hapart : ∀ link ∈ links, link.1 ≠ link.2)
    (hordered : links.Pairwise fun first later => later.2 ≠ first.1) (id t : Nat) :
    (resolve links id, t) ∉ links := by
  induction links generalizing id with
  | nil => exact List.not_mem_nil
  | cons pair links ih =>
      obtain ⟨hpair, hrest⟩ := List.pairwise_cons.1 hordered
      have hlater := ih (fun link hlink => hapart link (List.mem_cons_of_mem pair hlink)) hrest
      -- what has not been this placeholder when its turn was does not become it any more
      have hstays : ∀ other, other ≠ pair.1 → resolve links other ≠ pair.1 := by
        intro other hother
        rcases resolve_eq_or links other with hsame | ⟨link, hlink, hbecomes⟩
        · rwa [hsame]
        · rw [hbecomes]
          exact hpair link hlink
      have hnot : resolve (pair :: links) id ≠ pair.1 := by
        rw [resolve_cons]
        split
        · exact hstays pair.2 (hapart pair List.mem_cons_self).symm
        · next hother => exact hstays id hother
      intro hmem
      rcases List.mem_cons.1 hmem with hsame | hmem
      · exact hnot (congrArg Prod.fst hsame)
      · exact hlater _ hmem

end Links

/-! ### The references of a linked sequence -/

variable {config : Configuration} {table : VariableTable} {tokens linked : List Token}
  {last : Option Nat} {i id : Nat}

/-- A reference comes to stand for what the aliases make of its variable. -/
theorem source?_linked (h : link config table tokens = ⟨linked, .ok last⟩)
    (hat : tokens[i]? = some (.reference id)) :
    linked[i]?.bind Token.source? = some (resolve (pairs table tokens) id) := by
  obtain ⟨-, rfl, -⟩ := link_eq_of_ok h
  rw [redirected, List.getElem?_map, List.getElem?_map, hat]
  exact source?_wrap _ _

/-- What stands for a variable after linking was a reference before. -/
theorem reference_of_linked (hnone : synchs tokens = [])
    (h : link config table tokens = ⟨linked, .ok last⟩) {now : Nat}
    (hat : linked[i]?.bind Token.source? = some now) :
    ∃ id, tokens[i]? = some (.reference id) := by
  obtain ⟨-, rfl, -⟩ := link_eq_of_ok h
  rw [redirected, List.getElem?_map, List.getElem?_map] at hat
  cases htoken : tokens[i]? with
  | none =>
      rw [htoken] at hat
      cases hat
  | some t =>
      rw [htoken] at hat
      have hsource : (t.redirect (resolve (pairs table tokens))).source? = some now :=
        (source?_wrap _ _).symm.trans hat
      cases t with
      | reference id => exact ⟨id, rfl⟩
      | synch s => exact absurd rfl (Token.ne_synch_of_none hnone (List.mem_of_getElem? htoken) s)
      | _ => cases hsource

/-- **Aliases of aliases.**  Let linking succeed on tokens of which none is synchronized, and let
its aliases bind every placeholder to one variable and not lead in a circle.

Then a chain of aliases leads from the variable of each reference to one that no alias replaces.
After linking, what stands in the place of the reference stands for a variable on this chain.  It
is the end of the chain if the links of the chain stand among the aliases in the order in which
they are followed, and a placeholder otherwise.  Nothing else stands for a variable.  In
particular no placeholder is left if every alias stands in front of those that bind its variable. -/
theorem chains_resolved (hnone : synchs tokens = [])
    (h : link config table tokens = ⟨linked, .ok last⟩)
    (hsingle : ∀ p t u, Binds table tokens p t → Binds table tokens p u → t = u)
    (hacyclic : ∀ p, ¬ Relation.TransGen (Binds table tokens) p p) :
    (∀ (i id : Nat), tokens[i]? = some (.reference id) →
      ∃ path final, Leads id path final ∧ (∀ link ∈ path, Binds table tokens link.1 link.2) ∧
        (∀ t, ¬ Binds table tokens final t) ∧
        ∃ front now, front <+: path ∧ Leads id front now ∧
          linked[i]?.bind Token.source? = some now ∧
          (path.Sublist (pairs table tokens) → now = final) ∧
          (¬ path.Sublist (pairs table tokens) → ∃ t, Binds table tokens now t)) ∧
    (∀ (i now : Nat), linked[i]?.bind Token.source? = some now →
      ∃ id, tokens[i]? = some (.reference id)) ∧
    ((pairs table tokens).Pairwise (fun first later => later.2 ≠ first.1) →
      ∀ (i now : Nat), linked[i]?.bind Token.source? = some now →
        ∀ t, ¬ Binds table tokens now t) := by
  have hbinds : Binds table tokens = fun p t => (p, t) ∈ pairs table tokens :=
    funext fun p => funext fun t => propext mem_pairs_iff.symm
  rw [hbinds] at hsingle hacyclic ⊢
  refine ⟨fun i id hat => ?_, fun i now => reference_of_linked hnone h, ?_⟩
  · obtain ⟨path, final, hleads, hpath, hfinal⟩ := exists_leads_of_acyclic hacyclic id
    obtain ⟨front, hfront, hnow⟩ := exists_leads_resolve (pairs table tokens) id
    obtain ⟨more, hsplit, hmore⟩ :=
      hnow.continues hsingle (fun _ hlink => hfront.subset hlink) hpath hfinal hleads
    refine ⟨path, final, hleads, hpath, hfinal, front, _, ⟨more, hsplit.symm⟩, hnow,
      source?_linked h hat, resolve_of_sublist hsingle hfinal hleads, fun hout => ?_⟩
    -- a link of the chain is left, and it begins where the aliases have stopped
    cases hmore with
    | here =>
        rw [hsplit, List.append_nil] at hout
        exact absurd hfront hout
    | @link _ next _ path _ => exact ⟨next, hpath _ (by rw [hsplit]; simp)⟩
  · intro hordered i now hat t
    obtain ⟨id, hid⟩ := reference_of_linked hnone h hat
    have hapart : ∀ link ∈ pairs table tokens, link.1 ≠ link.2 := by
      intro link hlink
      obtain ⟨-, -, -, -, -, -, -, hne⟩ := mem_pairs_iff.1 hlink
      exact hne
    cases hat.symm.trans (source?_linked h hid)
    exact resolve_not_bound hapart hordered id t

/-! ### The order of aliases -/

/-- The variables of the examples: `P` stands for `B`, and `B` for `A`. -/
def chainTable : VariableTable :=
  ⟨[{ name := "A" }, { name := "B" }, { name := "P" }], by decide⟩

/-- The alias of `P` stands in front of the one that replaces its variable. -/
def chainInOrder : List Token :=
  [.reference 1, .constant (.constant (.text "P")), .function .secondName, .reference 0,
    .constant (.constant (.text "B")), .function .secondName, .function .valueSynch, .reference 2]

/-- The alias of `P` stands behind the one that replaces its variable. -/
def chainOutOfOrder : List Token :=
  [.reference 0, .constant (.constant (.text "B")), .function .secondName, .reference 1,
    .constant (.constant (.text "P")), .function .secondName, .reference 2]

/-- Aliases that bind placeholders to the variables right in front of them in the table bind each
to one variable and do not lead in a circle. -/
theorem chain_of_steps (h : ∀ pair ∈ pairs table tokens, pair.1 = pair.2 + 1) :
    (∀ p t u, Binds table tokens p t → Binds table tokens p u → t = u) ∧
      ∀ p, ¬ Relation.TransGen (Binds table tokens) p p := by
  have hstep : ∀ {p t : Nat}, Binds table tokens p t → p = t + 1 :=
    fun hbinds => h _ (mem_pairs_iff.2 hbinds)
  have hdown : ∀ {p t : Nat}, Relation.TransGen (Binds table tokens) p t → t < p := by
    intro p t hreach
    induction hreach with
    | single hbinds =>
        rw [hstep hbinds]
        exact Nat.lt_succ_self _
    | tail _ hbinds ih =>
        rw [hstep hbinds] at ih
        exact Nat.lt_of_succ_lt ih
  refine ⟨fun p t u ht hu => ?_, fun p hcycle => Nat.lt_irrefl p (hdown hcycle)⟩
  exact Nat.succ.inj ((hstep ht).symm.trans (hstep hu))

/-- In this order both placeholders are replaced by the end of the chain. -/
theorem chains_resolved_in_order :
    synchs chainInOrder = [] ∧
      (∃ linked last, link {} chainTable chainInOrder = ⟨linked, .ok last⟩ ∧
        linked[7]?.bind Token.source? = some 0 ∧
        ∀ (i now : Nat), linked[i]?.bind Token.source? = some now →
          ∀ t, ¬ Binds chainTable chainInOrder now t) ∧
      (∀ p t u, Binds chainTable chainInOrder p t → Binds chainTable chainInOrder p u → t = u) ∧
      ∀ p, ¬ Relation.TransGen (Binds chainTable chainInOrder) p p := by
  have hpairs : pairs chainTable chainInOrder = [(2, 1), (1, 0)] := rfl
  have hsteps : ∀ pair ∈ pairs chainTable chainInOrder, pair.1 = pair.2 + 1 := by
    rw [hpairs]
    decide
  obtain ⟨hsingle, hacyclic⟩ := chain_of_steps hsteps
  have hlink : link {} chainTable chainInOrder =
      ⟨(link {} chainTable chainInOrder).tokens, .ok (some 7)⟩ := rfl
  have hordered : (pairs chainTable chainInOrder).Pairwise
      fun first later => later.2 ≠ first.1 := by
    rw [hpairs]
    decide
  exact ⟨rfl, ⟨_, _, hlink, rfl, (chains_resolved rfl hlink hsingle hacyclic).2.2 hordered⟩,
    hsingle, hacyclic⟩

/-- In the other order a placeholder is left: `P` is replaced by `B`, although `B` is replaced by
`A` everywhere else and following the aliases from `P` ends at `A`. -/
theorem placeholder_remains :
    synchs chainOutOfOrder = [] ∧
      (link {} chainTable chainOutOfOrder).outcome = .ok none ∧
      (∀ p t u, Binds chainTable chainOutOfOrder p t → Binds chainTable chainOutOfOrder p u →
        t = u) ∧
      (∀ p, ¬ Relation.TransGen (Binds chainTable chainOutOfOrder) p p) ∧
      Binds chainTable chainOutOfOrder 2 1 ∧ Binds chainTable chainOutOfOrder 1 0 ∧
      (∀ t, ¬ Binds chainTable chainOutOfOrder 0 t) ∧
      chainOutOfOrder[6]? = some (.reference 2) ∧
      (link {} chainTable chainOutOfOrder).tokens[6]? = some (.reference 1) := by
  have hpairs : pairs chainTable chainOutOfOrder = [(1, 0), (2, 1)] := rfl
  have hsteps : ∀ pair ∈ pairs chainTable chainOutOfOrder, pair.1 = pair.2 + 1 := by
    rw [hpairs]
    decide
  obtain ⟨hsingle, hacyclic⟩ := chain_of_steps hsteps
  refine ⟨rfl, rfl, hsingle, hacyclic, mem_pairs_iff.1 ?_, mem_pairs_iff.1 ?_, fun t ht => ?_,
    rfl, rfl⟩
  · rw [hpairs]
    decide
  · rw [hpairs]
    decide
  · exact absurd (hsteps _ (mem_pairs_iff.2 ht)) (Nat.succ_ne_zero t).symm

end Telemetry.Link
