import Mathlib.Data.List.Pairwise
import Telemetry.Proofs.CommonKey
import Telemetry.Proofs.Histories

/-!
# Synchronized time

The keys that the passes of a run report, one after the other, when the times that the host
assigns to each synchronized variable never go back.  A synchronized variable knows the time of
the sample that it took last, and no key in its buffer is newer than the key of that time
(`Expression.Clocked`).  Once a key has been reported and what is not newer forgotten, every key
that comes into a buffer belongs to a later sample (`Synch.Ahead`).  So the reported keys never go
back either, and they ascend if no two times of one variable share a key
(`Expression.reported_ascends`).
-/

namespace Telemetry

/-! ### The times of variables -/

namespace VariableTable

variable {t : VariableTable} {id other : Nat}

/-- The time of the sample that the variable at a position holds, if it has been set. -/
def time? (t : VariableTable) (id : Nat) : Option Instant :=
  (t.get? id).bind fun v => if v.isSet then some v.sample.time else none

theorem time?_set_same (h : id < t.size) (sample : Timed) :
    (t.set id sample).time? id = some sample.time := by
  have hv : t.get? id = some t.entries[id] := List.getElem?_eq_getElem h
  rw [time?, get?_set, if_pos rfl, hv]
  rfl

theorem time?_set_other (h : other ≠ id) (sample : Timed) :
    (t.set id sample).time? other = t.time? other := by
  rw [time?, get?_set, if_neg h, time?]

/-- A name that becomes known has no time yet. -/
theorem time?_intern (t : VariableTable) (name : String) (id : Nat) :
    (t.intern name).2.time? id = t.time? id := by
  rcases t.intern_eq name with ⟨-, htable⟩ | ⟨-, -, hentries⟩
  · rw [htable]
  · rw [time?, time?, get?, get?, hentries]
    rcases Nat.lt_or_ge id t.entries.length with hlt | hge
    · rw [List.getElem?_append_left hlt]
    · have hold : t.entries[id]? = none := List.getElem?_eq_none_iff.2 hge
      rw [hold, List.getElem?_append_right hge]
      cases id - t.entries.length <;> rfl

end VariableTable

/-! ### One synchronized variable -/

namespace Synch

variable {s s' : Synch} {now : Option Instant} {k : Int64}

/-- The keys under which samples are buffered. -/
def keys (s : Synch) : List Int64 := s.buffer.entries.map Prod.fst

/-- What a pass can make of a synchronized variable whose variable has the time `now`. -/
inductive Advances (now : Option Instant) (s s' : Synch) : Prop where
  /-- No sample is taken. -/
  | rests (last : s'.lastTime = s.lastTime) (old : ∀ k ∈ s'.keys, k ∈ s.keys)
  /-- The sample that the variable holds is taken. -/
  | takes (t : Instant) (held : now = some t) (new : s.lastTime ≠ some t)
      (last : s'.lastTime = some t)
      (old : ∀ k ∈ s'.keys, k = Calendar.floorTo t s.resolution ∨ k ∈ s.keys)

theorem advances_observe (s : Synch) (v : Variable) :
    s.Advances (if v.isSet then some v.sample.time else none) (s.observe v) := by
  by_cases hold : (!v.isSet || s.lastTime == some v.sample.time) = true
  · rw [observe, if_pos hold]
    exact .rests rfl fun k hk => hk
  · rw [observe, if_neg hold]
    simp only [Bool.or_eq_true, Bool.not_eq_true', beq_iff_eq, not_or, Bool.not_eq_false] at hold
    refine .takes v.sample.time (if_pos hold.1) hold.2 rfl fun k hk => ?_
    exact Buffer.mem_keys_insertKey (((List.drop_sublist _ _).map _).subset hk)

theorem Advances.trimThrough (h : s.Advances now s') (key : Int64) :
    s.Advances now (s'.trimThrough key) := by
  have hsub : ∀ k ∈ (s'.trimThrough key).keys, k ∈ s'.keys :=
    fun k hk => (List.filter_sublist.map _).subset hk
  cases h with
  | rests last old => exact .rests last fun k hk => old k (hsub k hk)
  | takes t held new last old => exact .takes t held new last fun k hk => old k (hsub k hk)

/-- No key is newer than that of the sample that was taken last. -/
def Known (s : Synch) : Prop :=
  ∀ k ∈ s.keys, ∃ t, s.lastTime = some t ∧ k ≤ Calendar.floorTo t s.resolution

/-- What is taken later than all before keeps the last sample the newest. -/
theorem Known.advances (h : s.Known) (hnext : s.Advances now s')
    (hresolution : s'.resolution = s.resolution)
    (hlater : ∀ t u, s.lastTime = some t → now = some u → t ≤ u) : s'.Known := by
  intro k hk
  cases hnext with
  | rests last old =>
      rw [last, hresolution]
      exact h k (old k hk)
  | takes u held new last old =>
      refine ⟨u, last, ?_⟩
      rw [hresolution]
      rcases old k hk with rfl | hold
      · exact Int64.le_refl _
      · obtain ⟨t, ht, hle⟩ := h k hold
        exact Int64.le_trans hle (Calendar.floorTo_mono (hlater t u ht held) _)

/-- After a key has been reported: the last sample is no older, and all that is buffered is `R`
of the key. -/
structure Ahead (R : Int64 → Int64 → Prop) (key : Int64) (s : Synch) : Prop where
  last : ∃ t, s.lastTime = some t ∧ key ≤ Calendar.floorTo t s.resolution
  buffered : ∀ k ∈ s.keys, R key k

/-- What is taken later stays ahead of the key. -/
theorem Ahead.advances {R : Int64 → Int64 → Prop} (h : s.Ahead R k) (hnext : s.Advances now s')
    (hresolution : s'.resolution = s.resolution)
    (hlater : ∀ t u, s.lastTime = some t → now = some u → t ≠ u →
      t ≤ u ∧ ∀ k ≤ Calendar.floorTo t s.resolution, R k (Calendar.floorTo u s.resolution)) :
    s'.Ahead R k := by
  obtain ⟨t, ht, hle⟩ := h.last
  cases hnext with
  | rests last old =>
      refine ⟨⟨t, last.trans ht, ?_⟩, fun k' hk' => h.buffered k' (old k' hk')⟩
      rw [hresolution]
      exact hle
  | takes u held new last old =>
      obtain ⟨htu, hR⟩ := hlater t u ht held fun heq => new (heq ▸ ht)
      refine ⟨⟨u, last, ?_⟩, fun k' hk' => ?_⟩
      · rw [hresolution]
        exact Int64.le_trans hle (Calendar.floorTo_mono htu _)
      · rcases old k' hk' with rfl | hold
        · exact hR k hle
        · exact h.buffered k' hold

end Synch

/-- The last of times that never go back is the latest. -/
theorem le_of_getLast? {times : List Instant} {t last : Instant}
    (h : times.Pairwise (· ≤ ·)) (hlast : times.getLast? = some last) (ht : t ∈ times) :
    t ≤ last := by
  obtain ⟨front, rfl⟩ := List.getLast?_eq_some_iff.1 hlast
  rcases List.mem_append.1 ht with ht | ht
  · exact (List.pairwise_append.1 h).2.2 t ht last (List.mem_singleton.2 rfl)
  · rw [List.mem_singleton.1 ht]
    exact Int64.le_refl last

/-! ### Histories -/

/-- A synchronized variable that is appended by hand has taken nothing yet. -/
def Act.Fresh : Act → Prop
  | .push (.synch s) => s.buffer = .empty ∧ s.lastTime = none
  | _ => True

namespace Expression

/-- The time that an act assigns to the variable at a position. -/
def timeOf? (e : Expression) (id : Nat) : Act → Option Instant
  | .call (.set name sample) =>
    if e.table.position? name = some id then some sample.time else none
  | _ => none

/-- The keys that the passes among calls report, in order. -/
def reported (e : Expression) : List Call → List Int64
  | [] => []
  | .set name sample :: cs => (e.call (.set name sample)).reported cs
  | .evaluate :: cs => e.reportedKey?.toList ++ (e.call .evaluate).reported cs

variable {e : Expression} {times : Nat → List Instant}

/-- Whatever is fed came about from a synchronized variable that there was. -/
theorem advances_fed {s' : Synch} (h : s' ∈ synchs e.fed) :
    ∃ s ∈ synchs e.tokens, s'.source = s.source ∧ s'.resolution = s.resolution ∧
      s.Advances (e.table.time? s.source) s' := by
  rw [fed] at h
  cases hlast : e.lastSynch with
  | none =>
      rw [hlast, Option.elim_none] at h
      exact ⟨s', h, rfl, rfl, .rests rfl fun k hk => hk⟩
  | some last =>
      rw [hlast, Option.elim_some, synchs_ingest] at h
      obtain ⟨s, hs, rfl⟩ := List.mem_map.1 h
      refine ⟨s, hs, ?_⟩
      cases hv : e.table.get? s.source with
      | none => exact ⟨rfl, rfl, .rests rfl fun k hk => hk⟩
      | some v =>
          obtain ⟨s₁, hsame, hsource, hresolution⟩ := Token.synch_of_bare (s.bare_observe v)
          cases hsame
          refine ⟨hsource, hresolution, ?_⟩
          rw [VariableTable.time?, hv]
          exact s.advances_observe v

theorem advances_kept {s' : Synch} (h : s' ∈ synchs e.kept) :
    ∃ s ∈ synchs e.tokens, s'.source = s.source ∧ s'.resolution = s.resolution ∧
      s.Advances (e.table.time? s.source) s' := by
  rw [synchs_kept] at h
  cases hkey : e.reportedKey? with
  | none =>
      rw [hkey] at h
      exact advances_fed h
  | some key =>
      rw [hkey] at h
      obtain ⟨s₁, hs₁, rfl⟩ := List.mem_map.1 h
      obtain ⟨s, hs, hsource, hresolution, hnext⟩ := advances_fed hs₁
      exact ⟨s, hs, hsource, hresolution, hnext.trimThrough key⟩

/-- After times have been assigned: every variable holds the last of them, every synchronized
variable has taken one of them last, and has nothing buffered under a newer key. -/
structure Clocked (e : Expression) (times : Nat → List Instant) : Prop where
  held : ∀ id, e.table.time? id = (times id).getLast?
  taken : ∀ s ∈ synchs e.tokens, ∀ t, s.lastTime = some t → t ∈ times s.source
  known : ∀ s ∈ synchs e.tokens, s.Known

/-- No time of a synchronized variable is earlier than one before it. -/
def Forward (e : Expression) (times : Nat → List Instant) : Prop :=
  ∀ s ∈ synchs e.tokens, (times s.source).Pairwise (· ≤ ·)

/-- What never goes back for all synchronized variables does not for those that there were. -/
theorem Forward.of_synchs {f : Expression} (h : f.Forward times)
    (hkept : ∀ s ∈ synchs e.tokens, ∃ s' ∈ synchs f.tokens,
      s'.source = s.source ∧ s'.resolution = s.resolution) : e.Forward times := by
  intro s hs
  obtain ⟨s', hs', hsource, -⟩ := hkept s hs
  exact hsource ▸ h s' hs'

/-- What a synchronized variable takes is not earlier than what it has taken. -/
theorem Clocked.later (h : e.Clocked times) (hforward : e.Forward times) {s : Synch}
    (hs : s ∈ synchs e.tokens) {t u : Instant} (ht : s.lastTime = some t)
    (hu : e.table.time? s.source = some u) :
    t ∈ times s.source ∧ u ∈ times s.source ∧ t ≤ u := by
  have hlast : (times s.source).getLast? = some u := (h.held s.source).symm.trans hu
  have hmem := h.taken s hs t ht
  exact ⟨hmem, List.mem_of_getLast? hlast, le_of_getLast? (hforward s hs) hlast hmem⟩

/-- A synchronized variable that takes no sample, or takes that of its variable, is clocked. -/
theorem Clocked.known_of_advances (h : e.Clocked times) (hforward : e.Forward times)
    {s s' : Synch} (hs : s ∈ synchs e.tokens) (hresolution : s'.resolution = s.resolution)
    (hnext : s.Advances (e.table.time? s.source) s') : s'.Known :=
  (h.known s hs).advances hnext hresolution fun _ _ ht hu => (h.later hforward hs ht hu).2.2

theorem Clocked.link (h : e.Clocked times) : e.link.1.Clocked times := by
  have hsynchs : ∀ s ∈ synchs e.link.1.tokens, s ∈ synchs e.tokens ∨
      s = .empty s.source e.config.resolution e.config.historyLimit := by
    intro s hs
    rw [tokens_link] at hs
    split at hs
    · exact Or.inl hs
    · exact (Link.synch_mem_link (mem_synchs.1 hs)).imp mem_synchs.2 id
  refine ⟨fun id => ?_, fun s hs t ht => ?_, fun s hs k hk => ?_⟩
  · rw [e.link_frame.1]
    exact h.held id
  · rcases hsynchs s hs with hold | hnew
    · exact h.taken s hold t ht
    · rw [hnew] at ht
      cases ht
  · rcases hsynchs s hs with hold | hnew
    · exact h.known s hold k hk
    · rw [hnew] at hk
      cases hk

theorem Clocked.pass (h : e.Clocked times) (hforward : e.Forward times) :
    ({ e with tokens := e.kept } : Expression).Clocked times := by
  refine ⟨h.held, fun s' hs' t ht => ?_, fun s' hs' => ?_⟩
  · obtain ⟨s, hs, hsource, -, hnext⟩ := advances_kept hs'
    rw [hsource]
    cases hnext with
    | rests last old => exact h.taken s hs t (last.symm.trans ht)
    | takes u held new last old =>
        obtain rfl := Option.some.inj (last.symm.trans ht)
        exact List.mem_of_getLast? ((h.held s.source).symm.trans held)
  · obtain ⟨s, hs, -, hresolution, hnext⟩ := advances_kept hs'
    exact h.known_of_advances hforward hs hresolution hnext

theorem Clocked.set (h : e.Clocked times) (name : String) (sample : Timed) :
    (e.call (.set name sample)).Clocked fun id =>
      times id ++ (e.timeOf? id (.call (.set name sample))).toList := by
  have htokens : (e.call (.set name sample)).tokens = e.tokens := by rw [call_set]
  refine ⟨fun id => ?_, fun s hs t ht => ?_, fun s hs => ?_⟩
  · rw [call_set, timeOf?]
    cases hposition : e.table.position? name with
    | none =>
        rw [if_neg nofun, Option.toList_none, List.append_nil]
        exact h.held id
    | some other =>
        by_cases hsame : other = id
        · subst hsame
          rw [if_pos rfl, Option.toList_some, List.getLast?_concat]
          exact VariableTable.time?_set_same (VariableTable.position?_lt hposition) sample
        · rw [if_neg fun heq => hsame (Option.some.inj heq), Option.toList_none, List.append_nil]
          exact (VariableTable.time?_set_other (fun heq => hsame heq.symm) sample).trans (h.held id)
  · rw [htokens] at hs
    exact List.mem_append_left _ (h.taken s hs t ht)
  · rw [htokens] at hs
    exact h.known s hs

theorem Clocked.append (h : e.Clocked times) {table : VariableTable}
    (htable : ∀ id, table.time? id = e.table.time? id) {t : Token}
    (ht : ∀ s, t = .synch s → s.buffer = .empty ∧ s.lastTime = none) :
    ({ e with table := table, tokens := e.tokens ++ [t], linked := false } : Expression).Clocked
      times := by
  refine ⟨fun id => (htable id).trans (h.held id), fun s hs u hu => ?_, fun s hs k hk => ?_⟩
  all_goals
    rcases List.mem_append.1 (mem_synchs.1 hs) with hold | hnew
  · exact h.taken s (mem_synchs.2 hold) u hu
  · rw [(ht s (List.mem_singleton.1 hnew).symm).2] at hu
    cases hu
  · exact h.known s (mem_synchs.2 hold) k hk
  · rw [Synch.keys, (ht s (List.mem_singleton.1 hnew).symm).1] at hk
    cases hk

theorem Clocked.evaluate (h : e.Clocked times) (hforward : (e.call .evaluate).Forward times) :
    (e.call .evaluate).Clocked times := by
  rw [Expression.call] at hforward ⊢
  rcases e.evaluate_fst with heq | ⟨-, heq⟩
  · rw [heq]
    exact h.link
  · rw [heq] at hforward ⊢
    exact h.link.pass
      (hforward.of_synchs fun s hs => exists_synch_of_bare e.link.1.map_bare_kept hs)

/-- An act that assigns nothing adds no time. -/
theorem Clocked.of_quiet {f : Expression} {a : Act} (h : f.Clocked times)
    (ha : ∀ id, e.timeOf? id a = none) :
    f.Clocked fun id => times id ++ (e.timeOf? id a).toList := by
  have hnothing : (fun id => times id ++ (e.timeOf? id a).toList) = times :=
    funext fun id => by rw [ha, Option.toList_none, List.append_nil]
  rw [hnothing]
  exact h

/-- **An act keeps the clocks.** -/
theorem Clocked.act (h : e.Clocked times) (a : Act) (hfresh : a.Fresh)
    (hforward : (e.act a).Forward times) :
    (e.act a).Clocked fun id => times id ++ (e.timeOf? id a).toList := by
  cases a with
  | push t =>
      refine Clocked.of_quiet (h.append (fun id => rfl) fun s hs => ?_) fun id => rfl
      subst hs
      exact hfresh
  | refer name => exact Clocked.of_quiet (h.append (e.table.time?_intern name) nofun) fun id => rfl
  | link => exact Clocked.of_quiet h.link fun id => rfl
  | call c =>
      cases c with
      | set name sample => exact h.set name sample
      | evaluate => exact Clocked.of_quiet (h.evaluate hforward) fun id => rfl

/-- Different times of one synchronized variable, the later one behind the earlier one, have keys
that are `R` of all keys up to the earlier one's. -/
def Steps (e : Expression) (times : Nat → List Instant) (R : Int64 → Int64 → Prop) : Prop :=
  ∀ s ∈ synchs e.tokens, ∀ t ∈ times s.source, ∀ u ∈ times s.source, t ≤ u → t ≠ u →
    ∀ k ≤ Calendar.floorTo t s.resolution, R k (Calendar.floorTo u s.resolution)

/-- In a session the synchronized variables are those that there were at its beginning. -/
theorem Continues.exists_synch {start : Expression} (h : start.Continues e) {s : Synch}
    (hs : s ∈ synchs e.tokens) :
    ∃ s' ∈ synchs start.tokens, s'.source = s.source ∧ s'.resolution = s.resolution :=
  exists_synch_of_bare h.tokens.symm hs

theorem Forward.of_continues {start : Expression} (h : start.Forward times)
    (hstate : start.Continues e) : e.Forward times :=
  h.of_synchs fun _ => hstate.exists_synch

theorem Steps.of_continues {start : Expression} {R : Int64 → Int64 → Prop}
    (h : start.Steps times R) (hstate : start.Continues e) : e.Steps times R := by
  intro s hs
  obtain ⟨s', hs', hsource, hresolution⟩ := hstate.exists_synch hs
  exact hsource ▸ hresolution ▸ h s' hs'

end Expression

end Telemetry
