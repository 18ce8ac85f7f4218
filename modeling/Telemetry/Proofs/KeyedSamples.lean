import Mathlib.Logic.Function.Basic
import Telemetry.Proofs.Latest
import Telemetry.Proofs.Linking

/-!
# Samples under keys

A synchronized variable makes room for a sample as soon as it takes one, and forgets what it is
told to.  What it holds after any assignments, looks at its variable and forgettings can be said
without these steps (`Synch.reference`): of the samples that it was shown, those whose time is not
that of the one shown before, each under its key, a later one in place of an earlier one, less what
was forgotten behind them.  The buffer holds the greatest of these keys (`Synch.buffer_run`).

What is dropped for want of room lies below all that is held, and forgetting takes the least keys
first.  So it would never have come back, and how often room was made does not show.
-/

namespace Telemetry.Synch

open Buffer (insertKey)

/-! ### Runs of one synchronized variable -/

/-- What concerns one synchronized variable. -/
inductive Deed where
  /-- The host sets the variable at a position. -/
  | assign (id : Nat) (x : Timed)
  /-- The synchronized variable looks at its variable. -/
  | observe
  /-- It forgets the keys up to and including `key`. -/
  | trim (key : Int64)

/-- The variables and the synchronized variable after a deed. -/
def perform (state : VariableTable × Synch) : Deed → VariableTable × Synch
  | .assign id x => (state.1.set id x, state.2)
  | .observe => (state.1, (state.1.get? state.2.source).elim state.2 state.2.observe)
  | .trim key => (state.1, state.2.trimThrough key)

/-- The synchronized variable after deeds. -/
def run (table : VariableTable) (s : Synch) (deeds : List Deed) : Synch :=
  (deeds.foldl perform (table, s)).2

/-! ### What should be held -/

/-- What a synchronized variable is shown and told. -/
inductive Sight where
  | seen (x : Timed)
  | forgotten (key : Int64)

/-- The samples of a variable at the times when it was looked at and had been set, and the keys
that were forgotten between them. -/
def sights (source : Nat) : VariableTable → List Deed → List Sight
  | _, [] => []
  | table, .assign id x :: deeds => sights source (table.set id x) deeds
  | table, .observe :: deeds =>
      match (table.get? source).filter Variable.isSet with
      | some v => .seen v.sample :: sights source table deeds
      | none => sights source table deeds
  | table, .trim key :: deeds => .forgotten key :: sights source table deeds

/-- Without the samples that have the time of the one seen before. -/
def fresh : Option Instant → List Sight → List Sight
  | _, [] => []
  | last, .seen x :: rest =>
      if last = some x.time then fresh (some x.time) rest
      else .seen x :: fresh (some x.time) rest
  | last, .forgotten key :: rest => .forgotten key :: fresh last rest

/-- The samples under their keys after one more of what is seen and forgotten. -/
def gather (resolution : Int64) (held : Int64 → Option Timed) : Sight → Int64 → Option Timed
  | .seen x => Function.update held (Calendar.floorTo x.time resolution) (some x)
  | .forgotten key => fun k => if k ≤ key then none else held k

/-- The samples under their keys that a synchronized variable without a limit has to hold. -/
def reference (source : Nat) (resolution : Int64) (table : VariableTable) (deeds : List Deed) :
    Int64 → Option Timed :=
  (fresh none (sights source table deeds)).foldl (gather resolution) fun _ => none

/-! ### One step -/

section Keys

variable {resolution key k : Int64} {held : Int64 → Option Timed} {x : Timed}

theorem isSome_gather_seen :
    (gather resolution held (.seen x) k).isSome ↔
      (held k).isSome ∨ k = Calendar.floorTo x.time resolution := by
  by_cases hk : k = Calendar.floorTo x.time resolution
  · simp [gather, hk]
  · simp [gather, hk]

theorem gather_forgotten :
    gather resolution held (.forgotten key) k = if key < k then held k else none := by
  by_cases hk : key < k
  · rw [if_pos hk]
    exact if_neg (Int64.not_le.2 hk)
  · rw [if_neg hk]
    exact if_pos (Int64.not_lt.1 hk)

theorem isSome_gather_forgotten :
    (gather resolution held (.forgotten key) k).isSome ↔ (held k).isSome ∧ key < k := by
  rw [gather_forgotten]
  by_cases hk : key < k <;> simp [hk]

end Keys

instance : IsStrictOrder Int64 (· < ·) where
  irrefl := fun _ => Int64.lt_irrefl
  trans := fun _ _ _ => Int64.lt_trans

/-- A buffer holds the greatest keys for which there is a sample, each with its sample. -/
structure Mirrors (s : Synch) (held : Int64 → Option Timed) : Prop where
  keys : Latest (· < ·) s.limit (fun k => (held k).isSome) (s.buffer.entries.map Prod.fst)
  samples : ∀ entry ∈ s.buffer.entries, held entry.1 = some entry.2

section Steps

variable {s : Synch} {held : Int64 → Option Timed}

/-- What is held is determined by the keys. -/
theorem Mirrors.entries_eq (h : s.Mirrors held) :
    s.buffer.entries =
      (s.buffer.entries.map Prod.fst).filterMap fun k => (held k).map fun x => (k, x) := by
  rw [List.filterMap_map]
  refine List.filterMap_some.symm.trans (List.filterMap_congr fun entry hentry => ?_)
  show some entry = (held entry.1).map fun x => (entry.1, x)
  rw [h.samples entry hentry]
  rfl

/-- A sample is put between the smaller and the greater keys, in place of what was there. -/
theorem exists_insertKey (key : Int64) (x : Timed) {buffer : List (Int64 × Timed)}
    (h : (buffer.map Prod.fst).Pairwise (· < ·)) :
    ∃ front back, (∀ entry ∈ front, entry.1 < key) ∧ (∀ entry ∈ back, key < entry.1) ∧
      insertKey key x buffer = front ++ (key, x) :: back ∧
      (buffer = front ++ back ∨ ∃ y, buffer = front ++ (key, y) :: back) := by
  induction buffer with
  | nil => exact ⟨[], [], nofun, nofun, rfl, Or.inl rfl⟩
  | cons entry rest ih =>
      obtain ⟨k, y⟩ := entry
      rw [List.map_cons, List.pairwise_cons] at h
      obtain ⟨hk, hrest⟩ := h
      have hgreater : ∀ entry ∈ rest, k < entry.1 := fun entry hentry =>
        hk entry.1 (List.mem_map_of_mem hentry)
      rw [insertKey]
      split
      · next hlt =>
          refine ⟨[], (k, y) :: rest, nofun, fun entry hentry => ?_, rfl, Or.inl rfl⟩
          rcases List.mem_cons.1 hentry with rfl | hentry
          · exact hlt
          · exact Int64.lt_trans hlt (hgreater entry hentry)
      · next hnlt =>
          split
          · next heq =>
              subst heq
              exact ⟨[], rest, nofun, hgreater, rfl, Or.inr ⟨y, rfl⟩⟩
          · next hne =>
              have hlt : k < key := Int64.lt_of_le_of_ne (Int64.not_lt.1 hnlt) fun h => hne h.symm
              obtain ⟨front, back, hfront, hback, hinsert, hbuffer⟩ := ih hrest
              refine ⟨(k, y) :: front, back, fun entry hentry => ?_, hback, ?_, ?_⟩
              · rcases List.mem_cons.1 hentry with rfl | hentry
                · exact hlt
                · exact hfront entry hentry
              · rw [hinsert]
                rfl
              · rcases hbuffer with rfl | ⟨z, rfl⟩
                · exact Or.inl rfl
                · exact Or.inr ⟨z, rfl⟩

/-- What lies in a buffer beside a sample that has been put there has another key. -/
theorem mem_insertKey {key : Int64} {x : Timed} {buffer : List (Int64 × Timed)}
    (h : (buffer.map Prod.fst).Pairwise (· < ·)) {entry : Int64 × Timed}
    (hentry : entry ∈ insertKey key x buffer) :
    entry = (key, x) ∨ entry ∈ buffer ∧ entry.1 ≠ key := by
  obtain ⟨front, back, hfront, hback, hinsert, hbuffer⟩ := exists_insertKey key x h
  rw [hinsert] at hentry
  rcases mem_append_cons.1 hentry with hmem | hnew
  · refine Or.inr ⟨?_, ?_⟩
    · rcases hbuffer with rfl | ⟨y, rfl⟩
      · exact hmem
      · exact mem_append_cons.2 (Or.inl hmem)
    · rcases List.mem_append.1 hmem with hmem | hmem
      · exact Int64.ne_of_lt (hfront entry hmem)
      · exact (Int64.ne_of_lt (hback entry hmem)).symm
  · exact Or.inl hnew

theorem Mirrors.keys_taken (h : s.Mirrors held) (x : Timed) :
    Latest (· < ·) s.limit (fun k => (gather s.resolution held (.seen x) k).isSome)
      ((s.taken x).buffer.entries.map Prod.fst) := by
  obtain ⟨front, back, hfront, hback, hinsert, hbuffer⟩ :=
    exists_insertKey (s.keyOf x) x h.keys.sorted
  have hkeys := h.keys
  show Latest _ _ _ (((insertKey (s.keyOf x) x s.buffer.entries).drop
    ((insertKey (s.keyOf x) x s.buffer.entries).length - s.limit)).map Prod.fst)
  rw [hinsert, List.map_drop, ← List.length_map (f := Prod.fst), List.map_append, List.map_cons]
  rcases hbuffer with hnew | ⟨y, hold⟩
  · rw [hnew, List.map_append] at hkeys
    have hlatest := hkeys.insert (List.forall_mem_map.2 hfront) (List.forall_mem_map.2 hback)
    exact hlatest.congr fun k => isSome_gather_seen.symm
  · -- the keys are those that were there, so there is room for all of them
    have hsome : (held (s.keyOf x)).isSome := h.keys.sound _ (by rw [hold]; simp)
    rw [hold, List.map_append, List.map_cons] at hkeys
    rw [Nat.sub_eq_zero_of_le hkeys.bounded, List.drop_zero]
    refine hkeys.congr fun k => ⟨fun hk => isSome_gather_seen.2 (Or.inl hk), fun hk => ?_⟩
    rcases isSome_gather_seen.1 hk with hk | rfl
    · exact hk
    · exact hsome

/-- A sample that is taken is held under its key, and what there is no room for is dropped. -/
theorem Mirrors.taken (h : s.Mirrors held) (x : Timed) :
    (s.taken x).Mirrors (gather s.resolution held (.seen x)) := by
  refine ⟨h.keys_taken x, fun entry hentry => ?_⟩
  rcases mem_insertKey h.keys.sorted (List.mem_of_mem_drop hentry) with rfl | ⟨hold, hother⟩
  · exact Function.update_self _ _ _
  · exact (Function.update_of_ne hother _ _).trans (h.samples entry hold)

/-- What is forgotten is held no longer, and what was dropped before does not come back. -/
theorem Mirrors.trim (h : s.Mirrors held) (key : Int64) :
    (s.trimThrough key).Mirrors (gather s.resolution held (.forgotten key)) := by
  constructor
  · have hfilter : (s.trimThrough key).buffer.entries.map Prod.fst =
        (s.buffer.entries.map Prod.fst).filter fun k => key < k := by
      rw [List.filter_map]
      rfl
    rw [hfilter]
    refine (h.keys.filter (fun k => decide (key < k)) fun a k _ _ ha hlt => ?_).congr fun k => ?_
    · exact decide_eq_true (Int64.lt_trans (of_decide_eq_true ha) hlt)
    · rw [isSome_gather_forgotten, decide_eq_true_iff]
  · intro entry hentry
    obtain ⟨hmem, hlt⟩ := List.mem_filter.1 hentry
    rw [gather_forgotten, if_pos (of_decide_eq_true hlt)]
    exact h.samples entry hmem

end Steps

/-! ### Runs -/

section Runs

variable {s : Synch} {table : VariableTable}

/-- Nothing is taken of a variable that is unknown or has not been set. -/
theorem look_of_none (h : (table.get? s.source).filter Variable.isSet = none) :
    (table.get? s.source).elim s s.observe = s := by
  cases hv : table.get? s.source with
  | none => rfl
  | some v =>
      rw [hv, Option.filter_eq_none_iff] at h
      exact observe_of_unset (Bool.eq_false_iff.2 (h v rfl))

/-- A sample is taken of a variable that has been set, unless it has the time of the one seen
before. -/
theorem look_of_some {v : Variable} (h : (table.get? s.source).filter Variable.isSet = some v) :
    (table.get? s.source).elim s s.observe =
      if s.lastTime = some v.sample.time then s else s.taken v.sample := by
  obtain ⟨hv, hset⟩ := Option.filter_eq_some_iff.1 h
  rw [hv, Option.elim_some]
  by_cases hsame : s.lastTime = some v.sample.time
  · rw [if_pos hsame, observe, if_pos (by simp [hsame])]
  · rw [if_neg hsame, observe_of_new hset hsame]

theorem run_observe (s : Synch) (table : VariableTable) (deeds : List Deed) :
    run table s (.observe :: deeds) = run table ((table.get? s.source).elim s s.observe) deeds := rfl

/-- Deeds do to a buffer what the sights that come of them do to the samples under their keys. -/
theorem Mirrors.run {held : Int64 → Option Timed} (h : s.Mirrors held) (table : VariableTable)
    (deeds : List Deed) :
    (run table s deeds).Mirrors
        ((fresh s.lastTime (sights s.source table deeds)).foldl (gather s.resolution) held) ∧
      (Synch.run table s deeds).limit = s.limit := by
  induction deeds generalizing table s held with
  | nil => exact ⟨h, rfl⟩
  | cons deed deeds ih =>
      cases deed with
      | assign id x => exact ih h (table.set id x)
      | trim key => exact ih (h.trim key) table
      | observe =>
          rw [run_observe, sights]
          cases hv : (table.get? s.source).filter Variable.isSet with
          | none =>
              rw [look_of_none hv]
              exact ih h table
          | some v =>
              rw [look_of_some hv]
              dsimp only
              rw [fresh]
              by_cases hsame : s.lastTime = some v.sample.time
              · rw [if_pos hsame, if_pos hsame, ← hsame]
                exact ih h table
              · rw [if_neg hsame, if_neg hsame]
                exact ih (h.taken v.sample) table

/-- A variable that has taken nothing mirrors no samples. -/
theorem mirrors_empty (source : Nat) (resolution : Int64) (limit : Nat) :
    (empty source resolution limit).Mirrors fun _ => none :=
  ⟨Latest.nil (by simp), nofun⟩

/-- A resolution below one, which becomes one, gathers the same. -/
theorem gather_empty (source : Nat) (resolution : Int64) (limit : Nat) :
    gather (empty source resolution limit).resolution = gather resolution := by
  funext held sight
  cases sight with
  | seen x =>
      show Function.update held ((empty source resolution limit).keyOf x) _ = _
      rw [keyOf_empty]
      rfl
  | forgotten key => rfl

/-- A key is put among keys that ascend. -/
theorem exists_with_key (key : Int64) {keys : List Int64} (h : keys.Pairwise (· < ·)) :
    ∃ more : List Int64, more.Pairwise (· < ·) ∧ ∀ k, k ∈ more ↔ k ∈ keys ∨ k = key := by
  have hless : ∀ k ∈ keys.filter (· < key), k < key := fun k hk =>
    of_decide_eq_true (List.mem_filter.1 hk).2
  have hgreater : ∀ k ∈ keys.filter (key < ·), key < k := fun k hk =>
    of_decide_eq_true (List.mem_filter.1 hk).2
  have hothers : (keys.filter (· < key) ++ keys.filter (key < ·)).Pairwise (· < ·) := by
    refine List.pairwise_append.2 ⟨h.sublist List.filter_sublist, h.sublist List.filter_sublist,
      fun a ha b hb => ?_⟩
    exact Int64.lt_trans (hless a ha) (hgreater b hb)
  refine ⟨_, pairwise_append_cons hothers hless hgreater, fun k => ?_⟩
  rw [mem_append_cons, List.mem_append, List.mem_filter, List.mem_filter, decide_eq_true_iff,
    decide_eq_true_iff, ← and_or_left]
  refine ⟨Or.imp_left And.left, fun hk => ?_⟩
  by_cases hkey : k = key
  · exact Or.inr hkey
  · exact Or.inl ⟨hk.resolve_right hkey, Int64.lt_or_lt_of_ne hkey⟩

/-- The keys for which there is a sample can be listed in ascending order. -/
theorem exists_keys (resolution : Int64) (sights : List Sight) (held : Int64 → Option Timed)
    (keys : List Int64) (hsorted : keys.Pairwise (· < ·))
    (hall : ∀ k, k ∈ keys ↔ (held k).isSome) :
    ∃ keys : List Int64, keys.Pairwise (· < ·) ∧
      ∀ k, k ∈ keys ↔ (sights.foldl (gather resolution) held k).isSome := by
  induction sights generalizing held keys with
  | nil => exact ⟨keys, hsorted, hall⟩
  | cons sight sights ih =>
      cases sight with
      | seen x =>
          obtain ⟨more, hmore, hmem⟩ := exists_with_key (Calendar.floorTo x.time resolution) hsorted
          refine ih _ more hmore fun k => ?_
          rw [isSome_gather_seen, hmem, hall k]
      | forgotten key =>
          refine ih _ (keys.filter (key < ·)) (hsorted.sublist List.filter_sublist) fun k => ?_
          rw [isSome_gather_forgotten, List.mem_filter, hall k, decide_eq_true_iff]

end Runs

/-- **What a synchronized variable holds.**  Whatever is assigned, looked at and forgotten, the
buffer of a synchronized variable with a limit of at least one consists of the greatest keys, as
many as the limit allows, of the samples that it should hold without a limit, each with its
sample.  A pass over its token, wherever the token stands and whether or not it reports, leaves it
as it is. -/
theorem buffer_run (source : Nat) (resolution : Int64) {limit : Nat} (hlimit : 1 ≤ limit)
    (table : VariableTable) (deeds : List Deed) :
    (∃ keys : List Int64, keys.Pairwise (· < ·) ∧
      (∀ k, k ∈ keys ↔ (reference source resolution table deeds k).isSome) ∧
      (run table (empty source resolution limit) deeds).buffer.entries =
        (keys.drop (keys.length - limit)).filterMap fun k =>
          (reference source resolution table deeds k).map fun x => (k, x)) ∧
    (run table (empty source resolution limit) deeds).size ≤ limit ∧
    ∀ (table' : VariableTable) (key : Option Int64) (tokens : List Token) (stack : Stack) (i : Nat),
      tokens[i]? = some (.synch (run table (empty source resolution limit) deeds)) →
      (walk table' key tokens stack).tokens[i]? =
        some (.synch (run table (empty source resolution limit) deeds)) := by
  obtain ⟨hmirrors, hsame⟩ := (mirrors_empty source resolution limit).run table deeds
  rw [gather_empty] at hmirrors
  have hbound : (run table (empty source resolution limit) deeds).limit = limit :=
    hsame.trans (Nat.max_eq_left hlimit)
  obtain ⟨keys, hsorted, hall⟩ := exists_keys resolution (fresh none (sights source table deeds))
    (fun _ => none) [] List.Pairwise.nil (by simp)
  refine ⟨⟨keys, hsorted, hall, ?_⟩, ?_, fun _ _ _ stack _ h => synch_of_walk h stack⟩
  · have hkeys := hmirrors.keys.eq_drop hsorted hall
    rw [hbound] at hkeys
    rw [← hkeys]
    exact hmirrors.entries_eq
  · have hsize := hmirrors.keys.bounded
    rwa [List.length_map, hbound] at hsize

/-- One variable, which has not been set. -/
def lateTable : VariableTable := ⟨[{ name := "A" }], List.nodup_singleton "A"⟩

/-- Samples that come late, twice and below what has been forgotten. -/
def lateDeeds : List Deed :=
  [.observe, .assign 0 ⟨.int 1, 12⟩, .observe, .assign 0 ⟨.int 2, 12⟩, .observe,
    .assign 0 ⟨.int 3, 25⟩, .observe, .assign 0 ⟨.int 4, 17⟩, .observe,
    .assign 0 ⟨.int 5, 31⟩, .observe, .assign 0 ⟨.int 6, 13⟩, .observe, .trim 20,
    .assign 0 ⟨.int 7, 12⟩, .observe]

/-- With room for two, the key `10` is dropped, dropped again when it comes late, and taken once
`20` has been forgotten. -/
theorem buffer_run_late :
    1 ≤ 2 ∧
      (∃ keys : List Int64, keys.Pairwise (· < ·) ∧
        (∀ k, k ∈ keys ↔ (reference 0 10 lateTable lateDeeds k).isSome) ∧
        (run lateTable (empty 0 10 2) lateDeeds).buffer.entries =
          (keys.drop (keys.length - 2)).filterMap fun k =>
            (reference 0 10 lateTable lateDeeds k).map fun x => (k, x)) ∧
      (run lateTable (empty 0 10 2) lateDeeds).buffer.entries =
        [(10, ⟨.int 7, 12⟩), (30, ⟨.int 5, 31⟩)] :=
  ⟨by decide, (buffer_run 0 10 (by decide) lateTable lateDeeds).1, rfl⟩

end Telemetry.Synch
