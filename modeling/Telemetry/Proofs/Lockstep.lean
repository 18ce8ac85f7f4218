import Mathlib.Data.List.Infix
import Mathlib.Tactic.FinCases
import Telemetry.Proofs.Deliveries
import Telemetry.Proofs.Linking

/-!
# Lockstep

Synchronized variables that receive samples under the same ascending keys, one sample each for
every key, whatever the order of the deliveries to different variables.  While no variable runs
further ahead of the slowest than the history limit, every buffer holds exactly the samples that
its variable has received and that have not been reported (`InStep`).  So the delivery that
completes a key lets the pass after it report that key, with the sample that each variable has
for it, and every other pass is passed over (`reports_in_lockstep`).
-/

namespace Telemetry

namespace Expression

/-- The key of a sample at the resolution of an expression. -/
def keyOf (e : Expression) (x : Timed) : Int64 := Calendar.floorTo x.time e.config.resolution

/-- The expression has just been linked, and none of its synchronized variables has been set. -/
structure FreshlyLinked (e : Expression) : Prop where
  linking : ∃ draft : Expression, draft.linked = false ∧ synchs draft.tokens = [] ∧
    draft.link = (e, .ok ())
  unset : ∀ id ∈ e.sources, ∃ v, e.table.get? id = some v ∧ v.isSet = false

/-- No token but a synchronized variable fails in the next pass. -/
def Steady (e : Expression) : Prop :=
  ∀ t, e.fed[e.walked.reached]? = some t → t.isSynch = true

theorem steady_iff {e : Expression} :
    e.Steady ↔ (e.fed[e.walked.reached]?).all Token.isSynch = true := by
  rw [Steady]
  cases e.fed[e.walked.reached]? with
  | none => exact ⟨fun _ => rfl, fun _ t ht => nomatch ht⟩
  | some t => exact ⟨fun h => h t rfl, fun h u hu => Option.some.inj hu ▸ h⟩

instance (e : Expression) : Decidable e.Steady := decidable_of_iff _ steady_iff.symm

/-- Every synchronized variable is delivered one sample for each of the keys, in their order,
and a host evaluates after every delivery.  The variables need not take turns. -/
structure Lockstep (e : Expression) (ks : List Int64) (ds : List Delivery) : Prop where
  fresh : e.FreshlyLinked
  synchronized : e.sources ≠ []
  ascending : ks.Pairwise (· < ·)
  inOrder : ∀ id ∈ e.sources, (e.table.received id ds).map e.keyOf <+: ks
  /-- No variable is ever further ahead of another than the history limit. -/
  bounded : ∀ sent, sent <+: ds → ∀ id ∈ e.sources, ∀ other ∈ e.sources,
    (e.table.received id sent).length ≤
      (e.table.received other sent).length + e.config.historyLimit
  steady : ∀ earlier d, earlier ++ [d] <+: ds → (e.delivered earlier d).Steady

/-- The next pass gets past the last synchronized variable and to the end of the tokens, and
reports a key, every synchronized variable its sample of that key. -/
structure Reports (e : Expression) (key : Int64) (sampleOf : Nat → Option Timed) : Prop where
  ends : ∃ final, e.walked.outcome = .ok final
  past : ∃ last, e.lastSynch = some last ∧ last < e.walked.reached
  reported : e.reportedKey? = some key
  samples : ∀ s ∈ synchs e.fed, ∃ x, sampleOf s.source = some x ∧ e.keyOf x = key ∧
    s.report key = .ok ⟨x.value, key⟩

/-- The next pass does not get past any synchronized variable, and the record is passed over. -/
structure PassesOver (e : Expression) : Prop where
  short : ∃ last, e.lastSynch = some last ∧ e.walked.reached ≤ last
  first : ∀ i s, e.fed[i]? = some (.synch s) → e.walked.reached ≤ i
  nothing : e.reportedKey? = none
  unavailable : e.evaluate.2.2 = .error .synchronizationUnavailable

namespace FreshlyLinked

variable {e : Expression}

theorem of_link (h : e.FreshlyLinked) :
    e.linked = true ∧ e.lastSynch = Link.lastSynch? e.tokens ∧
      ∀ s ∈ synchs e.tokens, s = .empty s.source e.config.resolution e.config.historyLimit := by
  obtain ⟨draft, hunlinked, hnone, hlink⟩ := h.linking
  have hlinked : draft.link.1.linked = true := linked_link (by rw [hlink])
  rw [hlink] at hlinked
  rw [link, hunlinked, if_neg Bool.false_ne_true] at hlink
  dsimp only at hlink
  split at hlink
  · next last hlast =>
      obtain ⟨hfound, hempty⟩ := Link.synchs_link hnone hlast
      cases hlink
      exact ⟨hlinked, hfound, hempty⟩
  · cases congrArg Prod.snd hlink

/-- The keys of a synchronized variable are those at the resolution of the expression. -/
theorem keyOf_synch (h : e.FreshlyLinked) {s : Synch} (hs : s ∈ synchs e.tokens) :
    s.keyOf = e.keyOf := by
  funext x
  rw [h.of_link.2.2 s hs]
  exact Synch.keyOf_empty ..

theorem limit_synch (h : e.FreshlyLinked) {s : Synch} (hs : s ∈ synchs e.tokens) :
    s.limit = max e.config.historyLimit 1 := by
  rw [h.of_link.2.2 s hs]
  rfl

end FreshlyLinked

/-! ### One pass -/

section Pass

variable {e : Expression} {key : Int64}

/-- When no other token fails, a walk ends well or lacks a synchronized sample. -/
theorem Steady.ok_or_unavailable (h : e.Steady) :
    (∃ final, e.walked.outcome = .ok final) ∨
      e.walked.outcome = .error .synchronizationUnavailable := by
  cases hwalk : e.walked.outcome with
  | ok final => exact Or.inl ⟨final, rfl⟩
  | error fault =>
      obtain ⟨front, t, back, below, hfed, -, hstep, hwalked⟩ := walk_fault hwalk
      have hreached : e.walked.reached = front.length := congrArg Walk.reached hwalked
      have hat : e.fed[e.walked.reached]? = some t := by
        rw [hreached, hfed, List.getElem?_append_right (Nat.le_refl _), Nat.sub_self]
        rfl
      cases t with
      | synch s =>
          cases Token.step_fault hstep
          exact Or.inr rfl
      | _ => exact nomatch h _ hat

/-- A pass with a common key that every synchronized variable has a sample of reports it. -/
theorem Steady.reports (h : e.Steady) (hlast : e.lastSynch = Link.lastSynch? e.fed)
    (hne : synchs e.fed ≠ []) (hkey : e.commonKey? = some key) {sampleOf : Nat → Option Timed}
    (hsamples : ∀ s ∈ synchs e.fed, ∃ x, sampleOf s.source = some x ∧ e.keyOf x = key ∧
      s.report key = .ok ⟨x.value, key⟩) : e.Reports key sampleOf := by
  rcases h.ok_or_unavailable with ⟨final, hok⟩ | hfault
  · obtain ⟨last, hfound⟩ := Link.exists_lastSynch? hne
    have hpast : last < e.walked.reached := by
      rw [walked, reached_of_walk_ok hok]
      exact Link.lastSynch?_lt hfound
    rw [hfound] at hlast
    refine ⟨⟨final, hok⟩, ⟨last, hlast, hpast⟩, ?_, hsamples⟩
    rw [reportedKey?, hlast, Option.bind_some, if_pos hpast, hkey]
  · obtain ⟨s, hat, hlacks, -⟩ := stop_of_unavailable hfault
    obtain ⟨x, -, -, hreport⟩ := hsamples s (mem_synchs.2 (List.mem_of_getElem? hat))
    rw [Synch.report, hlacks key hkey] at hreport
    cases hreport

/-- A pass without a common key is passed over. -/
theorem Steady.passesOver (h : e.Steady) (hlinked : e.linked = true)
    (hlast : e.lastSynch = Link.lastSynch? e.fed) (hne : synchs e.fed ≠ [])
    (hkey : e.commonKey? = none) : e.PassesOver := by
  rcases h.ok_or_unavailable with ⟨final, hok⟩ | hfault
  · obtain ⟨s, hs⟩ := List.exists_mem_of_ne_nil _ hne
    obtain ⟨k, -, hsome, -⟩ := report_of_walk_ok hok (mem_synchs.1 hs)
    rw [hkey] at hsome
    exact nomatch hsome
  · obtain ⟨s, hat, -, hearlier⟩ := stop_of_unavailable hfault
    obtain ⟨last, hfound, hle⟩ := Link.le_lastSynch? hat
    refine ⟨⟨last, hlast.trans hfound, hle⟩, fun i s' hs' => ?_, ?_, ?_⟩
    · by_contra hlt
      obtain ⟨k, -, hsome, -⟩ := hearlier i s' (Nat.not_le.1 hlt) hs'
      rw [hkey] at hsome
      exact nomatch hsome
    · rw [reportedKey?, hkey]
      cases e.lastSynch with
      | none => rfl
      | some last => exact ite_self _
    · rw [outcome_of_linked hlinked, hfault]
      rfl

/-- What the synchronized variables are after a pass. -/
theorem synchs_kept (e : Expression) :
    synchs e.kept =
      e.reportedKey?.elim (synchs e.fed) fun key => (synchs e.fed).map (·.trimThrough key) := by
  cases h : e.reportedKey? with
  | none => rw [kept, h, Option.elim_none, Option.elim_none, walked, synchs_walk]
  | some key => rw [kept, h, Option.elim_some, Option.elim_some, synchs_trimAll, walked, synchs_walk]

end Pass

/-! ### The samples in lockstep -/

theorem le_of_ascending {ks : List Int64} (h : ks.Pairwise (· < ·)) {i j : Nat} {k l : Int64}
    (hi : ks[i]? = some k) (hj : ks[j]? = some l) (hle : i ≤ j) : k ≤ l := by
  obtain ⟨hlt, rfl⟩ := List.getElem?_eq_some_iff.1 hi
  obtain ⟨hlt', rfl⟩ := List.getElem?_eq_some_iff.1 hj
  rcases Nat.lt_or_eq_of_le hle with hlt'' | rfl
  · exact Int64.le_of_lt (List.pairwise_iff_getElem.1 h i j hlt hlt' hlt'')
  · exact Int64.le_refl _

namespace Lockstep

variable {e : Expression} {ks : List Int64} {ds sent : List Delivery}

theorem lastSynch (h : e.Lockstep ks ds) : ∃ last, e.lastSynch = some last := by
  have hne : synchs e.tokens ≠ [] := fun hnil => h.synchronized (by rw [sources, hnil]; rfl)
  obtain ⟨last, hfound⟩ := Link.exists_lastSynch? hne
  exact ⟨last, h.fresh.of_link.2.1.trans hfound⟩

theorem keys_prefix (h : e.Lockstep ks ds) (hsent : sent <+: ds) {id : Nat}
    (hid : id ∈ e.sources) : (e.table.received id sent).map e.keyOf <+: ks :=
  ((VariableTable.received_prefix hsent).map _).trans (h.inOrder id hid)

/-- The samples of a variable come under the keys in their order. -/
theorem key_of_received (h : e.Lockstep ks ds) (hsent : sent <+: ds) {id : Nat}
    (hid : id ∈ e.sources) {i : Nat} {x : Timed} (hx : (e.table.received id sent)[i]? = some x) :
    ks[i]? = some (e.keyOf x) := by
  have hmap : ((e.table.received id sent).map e.keyOf)[i]? = some (e.keyOf x) := by
    rw [List.getElem?_map, hx]
    rfl
  obtain ⟨hi, -⟩ := List.getElem?_eq_some_iff.1 hmap
  obtain ⟨rest, hrest⟩ := h.keys_prefix hsent hid
  rw [← hrest, List.getElem?_append_left hi, hmap]

theorem ascends (h : e.Lockstep ks ds) (hsent : sent <+: ds) {s : Synch}
    (hs : s ∈ synchs e.tokens) : s.Ascends (e.table.received s.source sent) := by
  rw [Synch.Ascends, h.fresh.keyOf_synch hs]
  exact h.ascending.sublist (h.keys_prefix hsent (mem_sources hs)).sublist

/-- Every key that all variables have received has a sample of each. -/
theorem samples_of_lt_completed (h : e.Lockstep ks ds) (hsent : sent <+: ds) {n : Nat}
    (hn : n < e.completed sent) :
    ∃ key, ks[n]? = some key ∧
      ∀ id ∈ e.sources, ∃ x, (e.table.received id sent)[n]? = some x ∧ e.keyOf x = key := by
  have hsample : ∀ id ∈ e.sources, ∃ x, (e.table.received id sent)[n]? = some x := by
    intro id hid
    exact ⟨_, List.getElem?_eq_getElem (Nat.lt_of_lt_of_le hn (completed_le hid sent))⟩
  obtain ⟨first, hfirst⟩ := List.exists_mem_of_ne_nil _ h.synchronized
  obtain ⟨y, hy⟩ := hsample first hfirst
  have hkey := h.key_of_received hsent hfirst hy
  refine ⟨e.keyOf y, hkey, fun id hid => ?_⟩
  obtain ⟨x, hx⟩ := hsample id hid
  exact ⟨x, hx, Option.some.inj ((h.key_of_received hsent hid hx).symm.trans hkey)⟩

/-- A buffer has room for the sample that comes next. -/
theorem room {earlier : List Delivery} {d : Delivery} (h : e.Lockstep ks ds)
    (hd : earlier ++ [d] <+: ds) {id : Nat} (hid : id ∈ e.sources) :
    (e.table.received id (earlier ++ [d])).length ≤
      e.completed earlier + max e.config.historyLimit 1 := by
  -- the slowest variable has received what is completed; the bound is taken against it, before
  -- or after the delivery, whichever side the delivery does not change
  obtain ⟨slow, hslow, hcount⟩ := completed_attained h.synchronized earlier
  by_cases hto : e.table.position? d.name = some id
  · by_cases hsame : id = slow
    · subst hsame
      rw [VariableTable.received_concat_of_eq hto, List.length_append, List.length_singleton]
      omega
    · have hother : e.table.position? d.name ≠ some slow := by
        rw [hto]
        exact fun heq => hsame (Option.some.inj heq)
      have hle := h.bounded _ hd id hid slow hslow
      rw [VariableTable.received_concat_of_ne hother] at hle
      omega
  · have hle := h.bounded _ ((List.prefix_append earlier [d]).trans hd) id hid slow hslow
    rw [VariableTable.received_concat_of_ne hto]
    omega

/-- The common key of buffers that have been emptied up to the key just completed. -/
theorem commonKey?_of_completed (h : e.Lockstep ks ds) (hsent : sent <+: ds) {n : Nat}
    {key : Int64} {tokens : List Token}
    (hbuffers : synchs tokens =
      (synchs e.tokens).map fun s => s.after (e.table.received s.source sent) n)
    (hn : e.completed sent = n + 1) (hkey : ks[n]? = some key) :
    Telemetry.commonKey? tokens = some key := by
  -- the newest key of a variable that has received `c` samples is the key number `c - 1`
  have hnewest : ∀ s ∈ synchs e.tokens, ∃ k,
      (s.after (e.table.received s.source sent) n).newestKey? = some k ∧
        ks[(e.table.received s.source sent).length - 1]? = some k := by
    intro s hs
    have hle := completed_le (mem_sources hs) sent
    have hlt : (e.table.received s.source sent).length - 1 <
        (e.table.received s.source sent).length := by omega
    have hlast : (e.table.received s.source sent).getLast? = some _ :=
      List.getLast?_eq_getElem?.trans (List.getElem?_eq_getElem hlt)
    refine ⟨_, ?_, h.key_of_received hsent (mem_sources hs) (List.getElem?_eq_getElem hlt)⟩
    rw [Synch.newestKey?_after_of_lt (h.ascends hsent hs) (by omega), hlast,
      h.fresh.keyOf_synch hs]
    rfl
  refine commonKey?_eq_some ?_ ?_
  · rw [hbuffers]
    intro s' hs'
    obtain ⟨s, hs, rfl⟩ := List.mem_map.1 hs'
    obtain ⟨k, hk, hat⟩ := hnewest s hs
    have hle := completed_le (mem_sources hs) sent
    exact ⟨k, hk, le_of_ascending h.ascending hkey hat (by omega)⟩
  · obtain ⟨slow, hslow, hcount⟩ := completed_attained h.synchronized sent
    obtain ⟨s, hs, rfl⟩ := List.mem_map.1 hslow
    obtain ⟨k, hk, hat⟩ := hnewest s hs
    rw [hcount, hn, Nat.add_sub_cancel, hkey] at hat
    cases hat
    rw [hbuffers]
    exact ⟨_, List.mem_map_of_mem hs, hk⟩

/-- There is no common key while a variable has nothing left in its buffer. -/
theorem commonKey?_of_incomplete (h : e.Lockstep ks ds) (hsent : sent <+: ds) {n : Nat}
    {tokens : List Token}
    (hbuffers : synchs tokens =
      (synchs e.tokens).map fun s => s.after (e.table.received s.source sent) n)
    (hn : e.completed sent = n) : Telemetry.commonKey? tokens = none := by
  obtain ⟨slow, hslow, hcount⟩ := completed_attained h.synchronized sent
  obtain ⟨s, hs, rfl⟩ := List.mem_map.1 hslow
  refine commonKey?_eq_none (s := s.after (e.table.received s.source sent) n) ?_ ?_
  · rw [hbuffers]
    exact List.mem_map_of_mem hs
  · exact Synch.newestKey?_after_of_le (h.ascends hsent hs) (by omega)

end Lockstep

/-! ### The run -/

/-- The state after deliveries in lockstep: every buffer holds what its variable has received
and what has not been reported, and every variable its last sample. -/
structure InStep (start : Expression) (sent : List Delivery) (e : Expression) : Prop where
  continues : start.Continues e
  buffers : synchs e.tokens = (synchs start.tokens).map fun s =>
    s.after (start.table.received s.source sent) (start.completed sent)
  held : ∀ id ∈ start.sources, e.table.Holds id (start.table.received id sent)

section Run

variable {start e : Expression} {ks : List Int64} {ds earlier : List Delivery} {d : Delivery}

/-- Before the first delivery nothing is held. -/
theorem Lockstep.begins (h : start.Lockstep ks ds) : start.InStep [] start := by
  obtain ⟨hlinked, -, hempty⟩ := h.fresh.of_link
  obtain ⟨id, -, hcount⟩ := completed_attained h.synchronized []
  refine ⟨Continues.refl hlinked, ?_, fun id hid => ?_⟩
  · rw [← hcount]
    refine (List.map_id _).symm.trans (List.map_congr_left fun s hs => ?_)
    rw [hempty s hs]
    exact (Synch.after_nil_empty ..).symm
  · obtain ⟨v, hv, hunset⟩ := h.fresh.unset id hid
    exact ⟨v, hv, by rw [hunset]; rfl⟩

/-- The pass after a delivery puts the sample into the buffer of its variable. -/
theorem InStep.fed (hin : start.InStep earlier e) (h : start.Lockstep ks ds)
    (hd : earlier ++ [d] <+: ds) :
    synchs (e.deliver d).fed = (synchs start.tokens).map fun s =>
      s.after (start.table.received s.source (earlier ++ [d])) (start.completed earlier) := by
  obtain ⟨last, hfound⟩ := h.lastSynch
  have hlast : (e.deliver d).lastSynch = some last :=
    (hin.continues.deliver d).lastSynch.trans hfound
  have htokens : (e.deliver d).tokens = e.tokens := by rw [deliver, call_set]
  rw [Expression.fed, hlast, Option.elim_some, synchs_ingest, htokens, hin.buffers, List.map_map]
  refine List.map_congr_left fun s hs => ?_
  have hid := mem_sources hs
  obtain ⟨v, hv, hheld⟩ := holds_deliver hin.continues.names (hin.held _ hid) d
  show ((e.deliver d).table.get? s.source).elim _ _ = _
  rw [hv, Option.elim_some]
  refine Synch.observe_after (start.table.received_concat _ _ _) hheld (h.ascends hd hs)
    (completed_le hid earlier) ?_
  rw [h.fresh.limit_synch hs]
  exact h.room hd hid

/-- Right before a pass, the last synchronized variable is where linking found it, and the
common key is that of the fed buffers. -/
theorem InStep.ready (hin : start.InStep earlier e) (h : start.Lockstep ks ds)
    (hd : earlier ++ [d] <+: ds) :
    (e.deliver d).lastSynch = Link.lastSynch? (e.deliver d).fed ∧
      synchs (e.deliver d).fed ≠ [] ∧
      (e.deliver d).commonKey? = Telemetry.commonKey? (e.deliver d).fed := by
  have hset : start.Continues (e.deliver d) := hin.continues.deliver d
  have hbare : start.tokens.map Token.bare = (e.deliver d).fed.map Token.bare := by
    rw [map_bare_fed, hset.tokens]
  obtain ⟨last, hfound⟩ := h.lastSynch
  refine ⟨?_, fun hnil => h.synchronized ?_, ?_⟩
  · rw [hset.lastSynch, h.fresh.of_link.2.1, Link.lastSynch?_congr hbare]
  · rw [hin.fed h hd] at hnil
    rw [sources, List.map_eq_nil_iff.1 hnil]
    rfl
  · rw [Expression.commonKey?, hset.lastSynch, hfound, Option.bind_some]

/-- While a key lacks a sample, the pass is passed over. -/
theorem InStep.passesOver (hin : start.InStep earlier e) (h : start.Lockstep ks ds)
    (hd : earlier ++ [d] <+: ds) (hsteady : (e.deliver d).Steady)
    (hsame : start.completed (earlier ++ [d]) = start.completed earlier) :
    (e.deliver d).PassesOver := by
  obtain ⟨hlast, hne, hcommon⟩ := hin.ready h hd
  have hnone := hcommon.trans (h.commonKey?_of_incomplete hd (hin.fed h hd) hsame)
  exact hsteady.passesOver (hin.continues.deliver d).linked hlast hne hnone

/-- The delivery that completes a key lets the pass report it. -/
theorem InStep.reports (hin : start.InStep earlier e) (h : start.Lockstep ks ds)
    (hd : earlier ++ [d] <+: ds) (hsteady : (e.deliver d).Steady)
    (hnext : start.completed (earlier ++ [d]) = start.completed earlier + 1) :
    ∃ key, ks[start.completed earlier]? = some key ∧
      (e.deliver d).Reports key fun id =>
        (start.table.received id (earlier ++ [d]))[start.completed earlier]? := by
  obtain ⟨hlast, hne, hcommon⟩ := hin.ready h hd
  have hlt : start.completed earlier < start.completed (earlier ++ [d]) := by omega
  obtain ⟨key, hkey, hsamples⟩ := h.samples_of_lt_completed hd hlt
  have hsome := hcommon.trans (h.commonKey?_of_completed hd (hin.fed h hd) hnext hkey)
  refine ⟨key, hkey, hsteady.reports hlast hne hsome fun s' hs' => ?_⟩
  rw [hin.fed h hd] at hs'
  obtain ⟨s, hs, rfl⟩ := List.mem_map.1 hs'
  obtain ⟨x, hx, hkeyOf⟩ := hsamples _ (mem_sources hs)
  refine ⟨x, hx, ?_, ?_⟩
  · rw [← hkeyOf, keyOf, keyOf, (hin.continues.deliver d).config]
  · rw [← hkeyOf, ← h.fresh.keyOf_synch hs]
    exact Synch.report_after (h.ascends hd hs) hx

/-- What a pass leaves in the buffers is what it was fed, less the key that it reported. -/
theorem InStep.kept (hin : start.InStep earlier e) (h : start.Lockstep ks ds)
    (hd : earlier ++ [d] <+: ds) (hsteady : (e.deliver d).Steady) :
    synchs (e.deliver d).kept = (synchs start.tokens).map fun s =>
      s.after (start.table.received s.source (earlier ++ [d]))
        (start.completed (earlier ++ [d])) := by
  rcases completed_concat h.synchronized earlier d with hsame | hnext
  -- nothing is reported, nothing is forgotten
  · rw [synchs_kept, (hin.passesOver h hd hsteady hsame).nothing, Option.elim_none, hin.fed h hd,
      hsame]
  -- every buffer starts with the sample of the reported key and loses it
  · obtain ⟨key, hkey, hreports⟩ := hin.reports h hd hsteady hnext
    have hlt : start.completed earlier < start.completed (earlier ++ [d]) := by omega
    obtain ⟨key', hkey', hsamples⟩ := h.samples_of_lt_completed hd hlt
    cases hkey.symm.trans hkey'
    rw [synchs_kept, hreports.reported, Option.elim_some, hin.fed h hd, hnext, List.map_map]
    refine List.map_congr_left fun s hs => ?_
    obtain ⟨x, hx, rfl⟩ := hsamples _ (mem_sources hs)
    rw [← h.fresh.keyOf_synch hs]
    exact Synch.trimThrough_after (h.ascends hd hs) hx

/-- **A delivery and the pass after it keep a run in step.** -/
theorem InStep.step (hin : start.InStep earlier e) (h : start.Lockstep ks ds)
    (hd : earlier ++ [d] <+: ds) (hsteady : (e.deliver d).Steady) :
    start.InStep (earlier ++ [d]) ((e.deliver d).call .evaluate) := by
  have hset : start.Continues (e.deliver d) := hin.continues.deliver d
  refine ⟨hset.call .evaluate, ?_, fun id hid => ?_⟩
  · rw [call_evaluate hset.linked]
    exact hin.kept h hd hsteady
  · rw [call_evaluate hset.linked]
    exact holds_deliver hin.continues.names (hin.held id hid) d

/-- Every state of a run in lockstep is in step. -/
theorem Lockstep.inStep (h : start.Lockstep ks ds) (hsent : earlier <+: ds) :
    start.InStep earlier (start.calls (deliveries earlier)) := by
  induction earlier using List.reverseRecOn with
  | nil => exact h.begins
  | append_singleton earlier d ih =>
      have hin := ih ((List.prefix_append earlier [d]).trans hsent)
      rw [calls_deliveries_concat]
      exact hin.step h hsent (h.steady earlier d hsent)

/-- The keys that have been reported are those that have been completed. -/
theorem Lockstep.reportedKeys_eq (h : start.Lockstep ks ds) (hsent : earlier <+: ds) :
    start.reportedKeys earlier = ks.take (start.completed earlier) := by
  induction earlier using List.reverseRecOn with
  | nil =>
      obtain ⟨id, -, hcount⟩ := completed_attained h.synchronized []
      rw [← hcount]
      rfl
  | append_singleton earlier d ih =>
      have hbefore := (List.prefix_append earlier [d]).trans hsent
      have hin := h.inStep hbefore
      have hsteady := h.steady earlier d hsent
      rw [reportedKeys_concat, ih hbefore, delivered]
      rcases completed_concat h.synchronized earlier d with hsame | hnext
      · rw [(hin.passesOver h hsent hsteady hsame).nothing, hsame]
        exact List.append_nil _
      · obtain ⟨key, hkey, hreports⟩ := hin.reports h hsent hsteady hnext
        rw [hreports.reported, hnext, List.take_add_one, hkey]

/-- **Lockstep delivers every sample once.**  In a run in lockstep, a delivery that is the last
of a key lets the pass after it report that key, with the sample of every synchronized variable
for it; after every other delivery the pass is passed over.  The keys that are reported are, in
order, those that have been completed. -/
theorem reports_in_lockstep {e : Expression} {ks : List Int64} {ds : List Delivery}
    (h : e.Lockstep ks ds) :
    (∀ earlier d, earlier ++ [d] <+: ds →
      (e.completed (earlier ++ [d]) = e.completed earlier + 1 ∧
          ∃ key, ks[e.completed earlier]? = some key ∧
            (e.delivered earlier d).Reports key fun id =>
              (e.table.received id (earlier ++ [d]))[e.completed earlier]?) ∨
        (e.completed (earlier ++ [d]) = e.completed earlier ∧
          (e.delivered earlier d).PassesOver)) ∧
      e.reportedKeys ds = ks.take (e.completed ds) := by
  refine ⟨fun earlier d hd => ?_, h.reportedKeys_eq (List.prefix_refl ds)⟩
  have hin := h.inStep ((List.prefix_append earlier [d]).trans hd)
  have hsteady := h.steady earlier d hd
  rcases completed_concat h.synchronized earlier d with hsame | hnext
  · exact Or.inr ⟨hsame, hin.passesOver h hd hsteady hsame⟩
  · exact Or.inl ⟨hnext, hin.reports h hd hsteady hnext⟩

end Run

/-- The sum of two synchronized variables, before it is linked. -/
def pairDraft : Expression :=
  { tokens := [.reference 0, .function .valueSynch, .reference 1, .function .valueSynch,
      .function (.operator (.arithmetic .add))]
    table := ⟨[{ name := "A" }, { name := "B" }], by decide⟩
    config := { historyLimit := 2 } }

/-- The sum of two synchronized variables. -/
def pair : Expression := pairDraft.link.1

/-- Two samples of the one variable before the first of the other. -/
def pairDeliveries : List Delivery :=
  [⟨"A", ⟨.int 1, 1000000000⟩⟩, ⟨"A", ⟨.int 2, 2700000000⟩⟩, ⟨"B", ⟨.int 3, 1300000000⟩⟩,
    ⟨"B", ⟨.int 4, 2000000000⟩⟩]

theorem lockstep_pair : pair.Lockstep [1000000000, 2000000000] pairDeliveries := by
  have hsources : pair.sources = [0, 1] := rfl
  have hbounded : ∀ sent ∈ pairDeliveries.inits, ∀ id ∈ pair.sources, ∀ other ∈ pair.sources,
      (pair.table.received id sent).length ≤
        (pair.table.received other sent).length + pair.config.historyLimit := by decide +kernel
  have hsteady : ∀ sent ∈ pairDeliveries.inits,
      sent.getLast?.all (fun d => (pair.delivered sent.dropLast d).Steady) = true := by
    decide +kernel
  refine ⟨⟨⟨pairDraft, rfl, rfl, rfl⟩, ?_⟩, ?_, by decide, ?_, ?_, ?_⟩
  · rw [hsources]
    intro id hid
    fin_cases hid <;> exact ⟨_, rfl, rfl⟩
  · rw [hsources]
    exact List.cons_ne_nil _ _
  · decide +kernel
  · intro sent hsent
    exact hbounded sent ((List.mem_inits _ _).2 hsent)
  · intro earlier d hd
    have hcheck := hsteady _ ((List.mem_inits _ _).2 hd)
    rw [List.getLast?_concat, List.dropLast_concat] at hcheck
    exact of_decide_eq_true hcheck

/-- The passes of the example report both keys. -/
theorem reports_of_pair :
    pair.Lockstep [1000000000, 2000000000] pairDeliveries ∧
      pair.reportedKeys pairDeliveries = [1000000000, 2000000000] :=
  ⟨lockstep_pair, (reports_in_lockstep lockstep_pair).2.trans (by decide +kernel)⟩

end Expression

end Telemetry
