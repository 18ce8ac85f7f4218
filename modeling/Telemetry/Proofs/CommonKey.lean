import Telemetry.Proofs.Lockstep
import Telemetry.Proofs.Skipped

/-!
# The common key of a pass

The one key under which all synchronized variables report in a pass: the least of their newest
keys, defined when none of them is empty (`IsCommonKey`).  In a pass every synchronized variable
that is got past leaves its own sample of that key, a pass in which nothing else fails lacks a
sample exactly if there is no such key or some variable has nothing under it, and what is
forgotten is decided by whether the pass gets past the last of the variables
(`Expression.synchronized_pass`).
-/

namespace Telemetry

namespace Synch

/-- The key is the newest under which a sample is buffered. -/
structure IsNewest (s : Synch) (key : Int64) : Prop where
  buffered : ∃ x, (key, x) ∈ s.buffer.entries
  newest : ∀ entry ∈ s.buffer.entries, entry.1 ≤ key

variable {s : Synch} {key : Int64}

theorem IsNewest.unique {k : Int64} (h : s.IsNewest key) (hk : s.IsNewest k) : key = k := by
  obtain ⟨x, hx⟩ := h.buffered
  obtain ⟨y, hy⟩ := hk.buffered
  exact Int64.le_antisymm (hk.newest (key, x) hx) (h.newest (k, y) hy)

theorem report_eq_ok_iff {r : Timed} :
    s.report key = .ok r ↔ ∃ x, (key, x) ∈ s.buffer.entries ∧ r = ⟨x.value, key⟩ := by
  rw [report]
  constructor
  · intro hr
    split at hr
    · next x hx =>
        cases hr
        exact ⟨x, Buffer.lookup_eq_some_iff.1 hx, rfl⟩
    · cases hr
  · rintro ⟨x, hx, rfl⟩
    rw [Buffer.lookup_eq_some_iff.2 hx]

theorem newestKey?_eq_none_iff : s.newestKey? = none ↔ s.buffer.entries = [] := by
  rw [newestKey?, Option.map_eq_none_iff, List.getLast?_eq_none_iff]

/-- The newest key is the last one. -/
theorem isNewest_of_newestKey? (hkey : s.newestKey? = some key) : s.IsNewest key := by
  obtain ⟨⟨k, x⟩, hlast, rfl⟩ := Option.map_eq_some_iff.1 hkey
  obtain ⟨front, hfront⟩ := List.getLast?_eq_some_iff.1 hlast
  have hascending := s.buffer.ascending
  rw [hfront, List.map_append, List.pairwise_append] at hascending
  refine ⟨⟨x, List.mem_of_getLast? hlast⟩, fun entry hentry => ?_⟩
  rw [hfront] at hentry
  rcases List.mem_append.1 hentry with hbefore | hlast
  · exact Int64.le_of_lt
      (hascending.2.2 _ (List.mem_map_of_mem hbefore) k (List.mem_singleton.2 rfl))
  · obtain rfl := List.mem_singleton.1 hlast
    exact Int64.le_refl _

theorem newestKey?_eq_some_iff : s.newestKey? = some key ↔ s.IsNewest key := by
  refine ⟨isNewest_of_newestKey?, fun hkey => ?_⟩
  cases hfound : s.newestKey? with
  | none =>
      obtain ⟨x, hx⟩ := hkey.buffered
      rw [newestKey?_eq_none_iff.1 hfound] at hx
      exact nomatch hx
  | some k => rw [(isNewest_of_newestKey? hfound).unique hkey]

end Synch

/-- The least of the newest keys of all synchronized variables, none of which is empty. -/
structure IsCommonKey (tokens : List Token) (key : Int64) : Prop where
  attained : ∃ s ∈ synchs tokens, s.IsNewest key
  least : ∀ s ∈ synchs tokens, ∃ k, s.IsNewest k ∧ key ≤ k

section CommonKey

variable {tokens : List Token} {key : Int64}

theorem IsCommonKey.unique {k : Int64} (h : IsCommonKey tokens key) (hk : IsCommonKey tokens k) :
    key = k := by
  have hle : ∀ {a b : Int64}, IsCommonKey tokens a → IsCommonKey tokens b → a ≤ b := by
    intro a b ha hb
    obtain ⟨s, hs, hnewest⟩ := hb.attained
    obtain ⟨c, hc, hle⟩ := ha.least s hs
    rwa [hc.unique hnewest] at hle
  exact Int64.le_antisymm (hle h hk) (hle hk h)

theorem exists_least {keys : List Int64} (h : keys ≠ []) :
    ∃ least ∈ keys, ∀ k ∈ keys, least ≤ k := by
  induction keys with
  | nil => exact absurd rfl h
  | cons key keys ih =>
      by_cases hnil : keys = []
      · subst hnil
        refine ⟨key, List.mem_singleton.2 rfl, fun k hk => ?_⟩
        rw [List.mem_singleton.1 hk]
        exact Int64.le_refl key
      · obtain ⟨least, hleast, hall⟩ := ih hnil
        by_cases hlt : key < least
        · refine ⟨key, List.mem_cons_self, fun k hk => ?_⟩
          rcases List.mem_cons.1 hk with rfl | hk
          · exact Int64.le_refl k
          · exact Int64.le_trans (Int64.le_of_lt hlt) (hall k hk)
        · refine ⟨least, List.mem_cons_of_mem key hleast, fun k hk => ?_⟩
          rcases List.mem_cons.1 hk with rfl | hk
          · exact Int64.not_lt.1 hlt
          · exact hall k hk

/-- Without an empty synchronized variable there is a common key. -/
theorem exists_isCommonKey (hne : synchs tokens ≠ [])
    (hall : ∀ s ∈ synchs tokens, ∃ k, s.IsNewest k) : ∃ key, IsCommonKey tokens key := by
  choose! newest hnewest using hall
  have hkeys : (synchs tokens).map newest ≠ [] := fun hnil => hne (List.map_eq_nil_iff.1 hnil)
  obtain ⟨least, hleast, hle⟩ := exists_least hkeys
  obtain ⟨s, hs, rfl⟩ := List.mem_map.1 hleast
  exact ⟨newest s, ⟨s, hs, hnewest s hs⟩,
    fun s' hs' => ⟨newest s', hnewest s' hs', hle _ (List.mem_map_of_mem hs')⟩⟩

/-- **The common key is computed as it is defined.** -/
theorem commonKey?_eq_some_iff (hne : synchs tokens ≠ []) :
    commonKey? tokens = some key ↔ IsCommonKey tokens key := by
  have hsome : ∀ {k : Int64}, IsCommonKey tokens k → commonKey? tokens = some k := by
    intro k hk
    refine commonKey?_eq_some (fun s hs => ?_) ?_
    · obtain ⟨k', hk', hle⟩ := hk.least s hs
      exact ⟨k', Synch.newestKey?_eq_some_iff.2 hk', hle⟩
    · obtain ⟨s, hs, hnewest⟩ := hk.attained
      exact ⟨s, hs, Synch.newestKey?_eq_some_iff.2 hnewest⟩
  refine ⟨fun h => ?_, hsome⟩
  -- what is computed is not `none`, so no variable is empty and there is a common key
  have hall : ∀ s ∈ synchs tokens, ∃ k, s.IsNewest k := by
    intro s hs
    cases hnewest : s.newestKey? with
    | none =>
        rw [commonKey?_eq_none hs hnewest] at h
        exact nomatch h
    | some k => exact ⟨k, Synch.isNewest_of_newestKey? hnewest⟩
  obtain ⟨k, hk⟩ := exists_isCommonKey hne hall
  have hsame : k = key := Option.some.inj ((hsome hk).symm.trans h)
  rwa [hsame] at hk

/-- There is no common key exactly if some synchronized variable is empty. -/
theorem not_exists_isCommonKey_iff (hne : synchs tokens ≠ []) :
    (¬ ∃ key, IsCommonKey tokens key) ↔ ∃ s ∈ synchs tokens, s.buffer.entries = [] := by
  constructor
  · intro hnone
    by_contra hfull
    refine hnone (exists_isCommonKey hne fun s hs => ?_)
    cases hnewest : s.newestKey? with
    | none => exact absurd ⟨s, hs, Synch.newestKey?_eq_none_iff.1 hnewest⟩ hfull
    | some k => exact ⟨k, Synch.isNewest_of_newestKey? hnewest⟩
  · rintro ⟨s, hs, hempty⟩ ⟨key, hkey⟩
    obtain ⟨k, hk, -⟩ := hkey.least s hs
    obtain ⟨x, hx⟩ := hk.buffered
    rw [hempty] at hx
    exact nomatch hx

end CommonKey

namespace Expression

variable {e : Expression}

/-- With a synchronized variable the tokens that are walked are the fed ones, and the key is
theirs. -/
theorem IsLinked.synchronized (h : e.IsLinked) (hne : synchs e.tokens ≠ []) :
    (∃ last, e.lastSynch = some last) ∧ e.fed = ingest e.table e.tokens ∧
      e.commonKey? = Telemetry.commonKey? e.fed ∧ synchs e.fed ≠ [] := by
  obtain ⟨last, hfound⟩ := Link.exists_lastSynch? hne
  have hlast : e.lastSynch = some last := h.last.trans hfound
  have hfed : e.fed = ingest e.table e.tokens := by rw [fed, hlast, Option.elim_some]
  refine ⟨⟨last, hlast⟩, hfed, by rw [commonKey?, hlast, Option.bind_some], fun hnil => hne ?_⟩
  rw [hfed, synchs_ingest] at hnil
  exact List.map_eq_nil_iff.1 hnil

/-- What a pass leaves of a synchronized variable: less the samples through the reported key. -/
theorem synch_after (hlinked : e.linked = true) {i : Nat} {s : Synch}
    (h : e.fed[i]? = some (.synch s)) :
    e.evaluate.1.tokens[i]? = some (.synch (e.reportedKey?.elim s s.trimThrough)) := by
  have hwalk : e.walked.tokens[i]? = some (.synch s) := synch_of_walk h {}
  rw [evaluate_of_linked hlinked]
  show e.kept[i]? = _
  cases hkey : e.reportedKey? with
  | none =>
      rw [kept, hkey]
      exact hwalk
  | some key =>
      rw [kept, hkey, Option.elim_some, Option.elim_some, trimAll, List.getElem?_map, hwalk]
      rfl

/-- A pass that gets past the last synchronized variable reports the common key. -/
theorem IsLinked.reportedKey?_of_past (h : e.IsLinked) {last : Nat}
    (hlast : Link.lastSynch? e.tokens = some last) (hpast : last < e.walked.reached) :
    ∃ key, e.commonKey? = some key ∧ e.reportedKey? = some key := by
  have hfed : Link.lastSynch? e.fed = some last := by
    rw [Link.lastSynch?_congr e.map_bare_fed, hlast]
  obtain ⟨s, hs⟩ := Link.synch_of_lastSynch? hfed
  obtain ⟨below, step, -, hstep⟩ := exists_step_of_lt_reached hpast hs
  cases Token.stepOk hstep with
  | @synch _ key x hkey hx =>
      refine ⟨key, hkey, ?_⟩
      rw [reportedKey?, h.last.trans hlast, Option.bind_some, if_pos hpast, hkey]

/-- A pass that does not get past the last synchronized variable reports nothing. -/
theorem IsLinked.reportedKey?_of_not_past (h : e.IsLinked) {last : Nat}
    (hlast : Link.lastSynch? e.tokens = some last) (hnot : e.walked.reached ≤ last) :
    e.reportedKey? = none := by
  rw [reportedKey?, h.last.trans hlast, Option.bind_some, if_neg (Nat.not_lt.2 hnot)]

/-- When no other token fails, a pass lacks a sample exactly if there is no common key, or some
synchronized variable has nothing under it. -/
theorem Steady.unavailable_iff (h : e.Steady) (hlinked : e.IsLinked)
    (hne : synchs e.tokens ≠ []) :
    e.evaluate.2.2 = .error .synchronizationUnavailable ↔
      e.commonKey? = none ∨ ∃ key, e.commonKey? = some key ∧
        ∃ s ∈ synchs e.fed, s.buffer.lookup key = none := by
  constructor
  · intro hskip
    have hwalk : e.walked.outcome = .error .synchronizationUnavailable :=
      walked_error hlinked.linked hskip fun n => Fault.noConfusion
    obtain ⟨s, hat, hlacks, -⟩ := stop_of_unavailable hwalk
    cases hkey : e.commonKey? with
    | none => exact Or.inl rfl
    | some key =>
        exact Or.inr ⟨key, rfl, s, mem_synchs.2 (List.mem_of_getElem? hat), hlacks key hkey⟩
  · intro hmissing
    rcases h.ok_or_unavailable with ⟨final, hok⟩ | hfault
    -- a walk that ends well has every synchronized variable report
    · have hreport : ∀ s ∈ synchs e.fed, ∃ key x, e.commonKey? = some key ∧ s.report key = .ok x :=
        fun s hs => report_of_walk_ok hok (mem_synchs.1 hs)
      rcases hmissing with hnone | ⟨key, hkey, s, hs, hlacks⟩
      · obtain ⟨-, -, -, hfed⟩ := hlinked.synchronized hne
        obtain ⟨s, hs⟩ := List.exists_mem_of_ne_nil _ hfed
        obtain ⟨key, x, hkey, -⟩ := hreport s hs
        rw [hnone] at hkey
        cases hkey
      · obtain ⟨key', x, hkey', hx⟩ := hreport s hs
        obtain rfl := Option.some.inj (hkey.symm.trans hkey')
        rw [Synch.report, hlacks] at hx
        cases hx
    · rw [outcome_of_linked hlinked.linked, hfault]
      rfl

/-- A synchronized variable that a pass has got past leaves its sample of the common key. -/
theorem pushed_of_lt_reached {i : Nat} {s : Synch} (hi : i < e.walked.reached)
    (hat : e.fed[i]? = some (.synch s)) :
    ∃ key x below, e.commonKey? = some key ∧ (key, x) ∈ s.buffer.entries ∧
      (walk e.table e.commonKey? (e.fed.take i) {}).outcome = .ok below ∧
      (walk e.table e.commonKey? (e.fed.take (i + 1)) {}).outcome =
        .ok (below.push ⟨x.value, key⟩) := by
  obtain ⟨below, step, hbelow, hstep⟩ := exists_step_of_lt_reached hi hat
  have hnext := congrArg Walk.outcome (walk_take_succ hbelow hat hstep)
  cases Token.stepOk hstep with
  | @synch _ key r hkey hr =>
      obtain ⟨x, hx, rfl⟩ := Synch.report_eq_ok_iff.1 hr
      exact ⟨key, x, below, hkey, hx, hbelow, hnext⟩

/-- **Synchronized variables in a pass.**  Let a linked expression, in any state of a session
(`IsLinked.calls`), have a synchronized variable.  In its next pass all of them
take the sample of their variables first.  The common key is the least of their newest keys then,
and there is none exactly if one of them is empty.

Every synchronized variable that the walk gets past leaves its own sample of the common key under
that key.  If no other token fails, the pass lacks a synchronized sample exactly if there is no
common key or some synchronized variable has nothing under it.  Whether or not a token behind
fails, as soon as the walk gets past the last synchronized variable each of them loses exactly
the samples through the common key; otherwise none of them loses any. -/
theorem synchronized_pass (hlinked : e.IsLinked) (hne : synchs e.tokens ≠ []) :
    e.fed = ingest e.table e.tokens ∧
      (∀ key, e.commonKey? = some key ↔ IsCommonKey e.fed key) ∧
      ((¬ ∃ key, IsCommonKey e.fed key) ↔ ∃ s ∈ synchs e.fed, s.buffer.entries = []) ∧
      (∀ (i : Nat) (s : Synch), i < e.walked.reached → e.fed[i]? = some (.synch s) →
        ∃ key x below, IsCommonKey e.fed key ∧ (key, x) ∈ s.buffer.entries ∧
          (walk e.table e.commonKey? (e.fed.take i) {}).outcome = .ok below ∧
          (walk e.table e.commonKey? (e.fed.take (i + 1)) {}).outcome =
            .ok (below.push ⟨x.value, key⟩)) ∧
      (e.Steady → (e.evaluate.2.2 = .error .synchronizationUnavailable ↔
        (¬ ∃ key, IsCommonKey e.fed key) ∨
          ∃ key, IsCommonKey e.fed key ∧ ∃ s ∈ synchs e.fed, ∀ x, (key, x) ∉ s.buffer.entries)) ∧
      ∃ last, Link.lastSynch? e.tokens = some last ∧
        (last < e.walked.reached → ∃ key, IsCommonKey e.fed key ∧
          ∀ (i : Nat) (s : Synch), e.fed[i]? = some (.synch s) → e.evaluate.1.tokens[i]? =
            some (.synch { s with buffer := s.buffer.filter fun k => key < k })) ∧
        (e.walked.reached ≤ last → ∀ (i : Nat) (s : Synch), e.fed[i]? = some (.synch s) →
          e.evaluate.1.tokens[i]? = some (.synch s)) := by
  obtain ⟨⟨last, hat⟩, hfed, hkey, hnefed⟩ := hlinked.synchronized hne
  have hlast : Link.lastSynch? e.tokens = some last := hlinked.last.symm.trans hat
  have hcommon : ∀ key, e.commonKey? = some key ↔ IsCommonKey e.fed key := by
    intro key
    rw [hkey]
    exact commonKey?_eq_some_iff hnefed
  have hnone : e.commonKey? = none ↔ ¬ ∃ key, IsCommonKey e.fed key := by
    rw [Option.eq_none_iff_forall_ne_some, not_exists]
    exact forall_congr' fun key => not_congr (hcommon key)
  have hempty := not_exists_isCommonKey_iff hnefed
  refine ⟨hfed, hcommon, hempty, ?_, ?_, last, hlast, ?_, ?_⟩
  · intro i s hi hs
    obtain ⟨key, x, below, hk, hx, hbelow, hnext⟩ := pushed_of_lt_reached hi hs
    exact ⟨key, x, below, (hcommon key).1 hk, hx, hbelow, hnext⟩
  · intro hsteady
    rw [hsteady.unavailable_iff hlinked hne, hnone]
    refine or_congr Iff.rfl (exists_congr fun key => and_congr (hcommon key) ?_)
    exact exists_congr fun s => and_congr_right fun _ => Buffer.lookup_eq_none_iff
  · intro hpast
    obtain ⟨key, hk, hreported⟩ := hlinked.reportedKey?_of_past hlast hpast
    refine ⟨key, (hcommon key).1 hk, fun i s hs => ?_⟩
    rw [synch_after hlinked.linked hs, hreported]
    rfl
  · intro hnot i s hs
    rw [synch_after hlinked.linked hs, hlinked.reportedKey?_of_not_past hlast hnot]
    rfl

/-- The sum of two synchronized variables, when `A` has samples of two keys and `B` of one. -/
def pairAhead : Expression :=
  pair.calls [.set "A" ⟨.int 1, 1000000000⟩, .evaluate, .set "A" ⟨.int 2, 2700000000⟩,
    .set "B" ⟨.int 3, 1300000000⟩]

/-- The next pass of the example reports the first key, and what is newer is kept. -/
theorem pass_of_pairAhead :
    pairAhead.IsLinked ∧ synchs pairAhead.tokens ≠ [] ∧
      ∃ key, IsCommonKey pairAhead.fed key ∧ key = 1000000000 ∧
        ∀ (i : Nat) (s : Synch), pairAhead.fed[i]? = some (.synch s) →
          pairAhead.evaluate.1.tokens[i]? =
            some (.synch { s with buffer := s.buffer.filter fun k => key < k }) := by
  have hlinked : pair.IsLinked := isLinked_link rfl rfl
  have hne : synchs pairAhead.tokens ≠ [] := by
    have hlength : (synchs pairAhead.tokens).length = 2 := by decide +kernel
    exact fun hnil => by simp [hnil] at hlength
  have hlinked' : pairAhead.IsLinked := hlinked.calls _
  obtain ⟨-, hcommon, -, -, -, last, hlast, hpast, -⟩ := synchronized_pass hlinked' hne
  have hfound : Link.lastSynch? pairAhead.tokens = some 2 := by decide +kernel
  obtain rfl := Option.some.inj (hlast.symm.trans hfound)
  obtain ⟨key, hkey, hkept⟩ := hpast (by decide +kernel)
  have hfirst : pairAhead.commonKey? = some 1000000000 := by decide +kernel
  exact ⟨hlinked', hne, key, hkey, hkey.unique ((hcommon _).1 hfirst), hkept⟩

end Expression

end Telemetry
