import Mathlib.Data.List.Induction
import Telemetry.Proofs.Walk

/-!
# Buffers of synchronized variables

What a synchronized variable holds when its samples come in ascending order of their keys and
it forgets the oldest of them one by one (`Synch.after`): the samples that have come and are not
forgotten, each under its key.  Looking at a sample again changes nothing, a newer one is put
behind the others, and the oldest one is what is reported and forgotten next.
-/

namespace Telemetry

/-! ### Buffers -/

namespace Buffer

variable {b : Buffer} {x : Timed} {key : Int64}

/-- A sample under a key that is newer than all others goes behind them. -/
theorem insertKey_of_newer {entries : List (Int64 × Timed)}
    (h : ∀ entry ∈ entries, entry.1 < key) : insertKey key x entries = entries ++ [(key, x)] := by
  induction entries with
  | nil => rfl
  | cons entry rest ih =>
      obtain ⟨k, y⟩ := entry
      have hk : k < key := h (k, y) List.mem_cons_self
      have hne : key ≠ k := fun heq => Int64.lt_irrefl (heq ▸ hk)
      rw [insertKey, if_neg (Int64.lt_asymm hk), if_neg hne,
        ih fun entry hentry => h entry (List.mem_cons_of_mem _ hentry)]
      rfl

/-- The samples of a list, each under its key. -/
def ofList (entries : List (Int64 × Timed)) : Buffer :=
  entries.foldl (fun b entry => b.insert entry.1 entry.2) .empty

/-- What is listed by ascending keys is held as it is listed. -/
theorem entries_ofList {entries : List (Int64 × Timed)}
    (h : (entries.map Prod.fst).Pairwise (· < ·)) : (ofList entries).entries = entries := by
  induction entries using List.reverseRecOn with
  | nil => rfl
  | append_singleton front entry ih =>
      rw [List.map_append, List.pairwise_append] at h
      obtain ⟨hfront, -, hnewer⟩ := h
      have hkeys : ∀ e ∈ (ofList front).entries, e.1 < entry.1 := by
        rw [ih hfront]
        exact fun e he => hnewer e.1 (List.mem_map_of_mem he) entry.1 (List.mem_singleton.2 rfl)
      rw [ofList, List.foldl_concat]
      show insertKey entry.1 entry.2 (ofList front).entries = _
      rw [insertKey_of_newer hkeys, ih hfront]

/-- What is found under a key is what was put there. -/
theorem lookup_eq_some_iff : b.lookup key = some x ↔ (key, x) ∈ b.entries := by
  obtain ⟨entries, ascending⟩ := b
  show entries.lookup key = some x ↔ (key, x) ∈ entries
  induction entries with
  | nil => simp
  | cons entry rest ih =>
      obtain ⟨k, y⟩ := entry
      rw [List.map_cons, List.pairwise_cons] at ascending
      by_cases hk : key = k
      · subst hk
        have hnot : (key, x) ∉ rest := fun hmem =>
          Int64.lt_irrefl (ascending.1 key (List.mem_map_of_mem hmem))
        simp [hnot, eq_comm]
      · have hbeq : (key == k) = false := beq_eq_false_iff_ne.2 hk
        simp [List.lookup_cons, hbeq, hk, ih ascending.2]

/-- Nothing is found under a key under which nothing is. -/
theorem lookup_eq_none_iff : b.lookup key = none ↔ ∀ x, (key, x) ∉ b.entries := by
  rw [Option.eq_none_iff_forall_ne_some]
  exact forall_congr' fun x => not_congr lookup_eq_some_iff

end Buffer

namespace Synch

variable {s : Synch} {xs : List Timed} {x : Timed} {n : Nat}

/-- The key of a sample. -/
def keyOf (s : Synch) (x : Timed) : Int64 := Calendar.floorTo x.time s.resolution

/-- Samples under their keys. -/
def keyed (s : Synch) (xs : List Timed) : List (Int64 × Timed) := xs.map fun x => (s.keyOf x, x)

/-- The variable after samples have been taken one by one and the first `n` forgotten. -/
def after (s : Synch) (xs : List Timed) (n : Nat) : Synch :=
  { s with
    buffer := (Buffer.ofList (s.keyed xs)).drop n
    lastTime := xs.getLast?.map (·.time) }

/-- The keys of samples ascend, no two of them the same. -/
def Ascends (s : Synch) (xs : List Timed) : Prop := (xs.map s.keyOf).Pairwise (· < ·)

theorem entries_after (h : s.Ascends xs) :
    (s.after xs n).buffer.entries = (s.keyed xs).drop n := by
  have hkeys : ((s.keyed xs).map Prod.fst).Pairwise (· < ·) := by
    rw [keyed, List.map_map]
    exact h
  show (Buffer.ofList (s.keyed xs)).entries.drop n = _
  rw [Buffer.entries_ofList hkeys]

/-- A variable that has taken nothing is one after no samples. -/
theorem after_nil_empty (source : Nat) (resolution : Int64) (limit : Nat) :
    (empty source resolution limit).after [] 0 = empty source resolution limit := rfl

/-- A resolution below one, which becomes one, makes the same keys. -/
theorem keyOf_empty (source : Nat) (resolution : Int64) (limit : Nat) (x : Timed) :
    (empty source resolution limit).keyOf x = Calendar.floorTo x.time resolution := by
  rw [keyOf, empty]
  dsimp only
  split
  · next hlt =>
      have hle : resolution.toInt ≤ 1 := Int.le_of_lt (Int64.lt_iff_toInt_lt.1 hlt)
      rw [Calendar.floorTo, Calendar.floorTo, if_pos hle, if_pos (by decide)]
  · rfl

/-- A variable that has not been set is passed over. -/
theorem observe_of_unset {v : Variable} (h : v.isSet = false) : s.observe v = s := by
  rw [observe, h]
  rfl

/-- The synchronized variable after it has taken a sample. -/
def taken (s : Synch) (x : Timed) : Synch :=
  let buffer := s.buffer.insert (s.keyOf x) x
  { s with
    lastTime := some x.time
    buffer := buffer.drop (buffer.size - s.limit) }

/-- A sample is taken of a variable that has been set, unless it has the time of the one taken
last. -/
theorem observe_of_new {v : Variable} (hset : v.isSet = true)
    (hnew : s.lastTime ≠ some v.sample.time) : s.observe v = s.taken v.sample := by
  rw [observe, if_neg (by simp [hset, hnew])]
  rfl

/-- The sample that was taken last is not taken again. -/
theorem observe_after_same {v : Variable} (h : xs.getLast? = some v.sample) :
    (s.after xs n).observe v = s.after xs n := by
  have htime : (s.after xs n).lastTime = some v.sample.time := by
    show xs.getLast?.map (·.time) = _
    rw [h]
    rfl
  rw [observe, htime, if_pos (by simp)]

/-- The keys still ascend with a newer sample behind the others. -/
theorem ascends_concat : s.Ascends (xs ++ [x]) ↔ s.Ascends xs ∧ ∀ y ∈ xs, s.keyOf y < s.keyOf x := by
  rw [Ascends, List.map_append, List.pairwise_append]
  simp [Ascends]

/-- A sample that is newer than all before it is put behind them, if there is room for it. -/
theorem observe_after_newer {v : Variable} (hset : v.isSet = true)
    (hascends : s.Ascends (xs ++ [v.sample])) (hn : n ≤ xs.length)
    (hroom : xs.length < n + s.limit) :
    (s.after xs n).observe v = s.after (xs ++ [v.sample]) n := by
  obtain ⟨hbefore, hnewer⟩ := ascends_concat.1 hascends
  -- samples of one time would have one key, so the new one is not taken for the last
  have htime : ¬(xs.getLast?.map (·.time) = some v.sample.time) := by
    intro h
    obtain ⟨y, hy, hsame⟩ := Option.map_eq_some_iff.1 h
    have hlt := hnewer y (List.mem_of_getLast? hy)
    rw [keyOf, keyOf, hsame] at hlt
    exact Int64.lt_irrefl hlt
  have hinsert : (s.after xs n).buffer.insert (s.keyOf v.sample) v.sample =
      (s.after (xs ++ [v.sample]) n).buffer := by
    refine Buffer.ext ?_
    show Buffer.insertKey _ _ (s.after xs n).buffer.entries = _
    rw [entries_after hbefore, entries_after hascends, keyed, keyed, List.map_append,
      List.drop_append_of_le_length (by rwa [List.length_map])]
    refine Buffer.insertKey_of_newer fun entry hentry => ?_
    obtain ⟨y, hy, rfl⟩ := List.mem_map.1 (List.mem_of_mem_drop hentry)
    exact hnewer y hy
  have hsize : (s.after (xs ++ [v.sample]) n).buffer.size ≤ s.limit := by
    rw [Buffer.size, entries_after hascends, keyed, List.length_drop, List.length_map,
      List.length_append, List.length_singleton]
    omega
  rw [observe_of_new hset htime]
  show ({ s with
    lastTime := some v.sample.time
    buffer := ((s.after xs n).buffer.insert (s.keyOf v.sample) v.sample).drop
      (((s.after xs n).buffer.insert (s.keyOf v.sample) v.sample).size - s.limit) } : Synch) = _
  rw [hinsert, Nat.sub_eq_zero_of_le hsize, after, List.getLast?_concat]
  rfl

/-- Whether or not a sample has come since, the variable holds what it held and what has come,
if there is room for it. -/
theorem observe_after {ys : List Timed} {v : Variable} (hys : ys = xs ∨ ∃ x, ys = xs ++ [x])
    (hlast : ys.getLast? = if v.isSet then some v.sample else none) (hascends : s.Ascends ys)
    (hn : n ≤ xs.length) (hroom : ys.length ≤ n + s.limit) :
    (s.after xs n).observe v = s.after ys n := by
  rcases hys with rfl | ⟨x, rfl⟩
  · cases hset : v.isSet with
    | false => exact observe_of_unset hset
    | true => exact observe_after_same (by rw [hlast, hset, if_pos rfl])
  · rw [List.getLast?_concat] at hlast
    rw [List.length_append, List.length_singleton] at hroom
    cases hset : v.isSet with
    | false =>
        rw [hset] at hlast
        exact nomatch hlast
    | true =>
        rw [hset, if_pos rfl] at hlast
        cases hlast
        exact observe_after_newer hset hascends hn (by omega)

/-- When nothing is left, there is no newest key. -/
theorem newestKey?_after_of_le (hascends : s.Ascends xs) (h : xs.length ≤ n) :
    (s.after xs n).newestKey? = none := by
  rw [newestKey?, entries_after hascends, List.drop_eq_nil_of_le (by rwa [keyed, List.length_map])]
  rfl

/-- Otherwise the newest key is that of the last sample. -/
theorem newestKey?_after_of_lt (hascends : s.Ascends xs) (h : n < xs.length) :
    (s.after xs n).newestKey? = xs.getLast?.map s.keyOf := by
  rw [newestKey?, entries_after hascends, List.getLast?_drop,
    if_neg (by rw [keyed, List.length_map]; omega), keyed, List.getLast?_map, Option.map_map]
  rfl

/-- The oldest sample that is left, and those behind it. -/
theorem entries_after_cons (hascends : s.Ascends xs) (h : xs[n]? = some x) :
    (s.after xs n).buffer.entries =
      (s.keyOf x, x) :: (s.after xs (n + 1)).buffer.entries := by
  obtain ⟨hn, rfl⟩ := List.getElem?_eq_some_iff.1 h
  rw [entries_after hascends, entries_after hascends, keyed,
    List.drop_eq_getElem_cons (by rwa [List.length_map]), List.getElem_map]

/-- The oldest sample that is left is reported under its key. -/
theorem report_after (hascends : s.Ascends xs) (h : xs[n]? = some x) :
    (s.after xs n).report (s.keyOf x) = .ok ⟨x.value, s.keyOf x⟩ := by
  rw [report, Buffer.lookup, entries_after_cons hascends h, List.lookup_cons_self]

/-- To forget through the key of the oldest sample that is left is to forget that sample. -/
theorem trimThrough_after (hascends : s.Ascends xs) (h : xs[n]? = some x) :
    (s.after xs n).trimThrough (s.keyOf x) = s.after xs (n + 1) := by
  have hentries := entries_after_cons hascends h
  -- the keys ascend, so the oldest sample is the only one that is not newer than its key
  have hbehind := (s.after xs n).buffer.ascending
  rw [hentries, List.map_cons, List.pairwise_cons] at hbehind
  have hfilter : (s.after xs n).buffer.filter (fun k => s.keyOf x < k) =
      (s.after xs (n + 1)).buffer := by
    refine Buffer.ext ?_
    show (s.after xs n).buffer.entries.filter (fun entry => s.keyOf x < entry.1) = _
    rw [hentries, List.filter_cons_of_neg (by simp)]
    refine List.filter_eq_self.2 fun entry hentry => ?_
    exact decide_eq_true (hbehind.1 entry.1 (List.mem_map_of_mem hentry))
  rw [trimThrough, hfilter]
  rfl

end Synch

/-! ### The synchronized variables among tokens -/

theorem mem_synchs {tokens : List Token} {s : Synch} : s ∈ synchs tokens ↔ .synch s ∈ tokens := by
  rw [synchs, List.mem_filterMap]
  constructor
  · rintro ⟨t, ht, hsome⟩
    cases t with
    | synch s' =>
        cases hsome
        exact ht
    | _ => exact nomatch hsome
  · intro h
    exact ⟨_, h, rfl⟩

theorem synchs_append (ts us : List Token) : synchs (ts ++ us) = synchs ts ++ synchs us :=
  List.filterMap_append

theorem synchs_ingest (table : VariableTable) (tokens : List Token) :
    synchs (ingest table tokens) =
      (synchs tokens).map fun s => (table.get? s.source).elim s s.observe := by
  rw [synchs, synchs, ingest, List.filterMap_map, List.map_filterMap]
  refine List.filterMap_congr fun t _ => ?_
  cases t <;> rfl

theorem synchs_trimAll (key : Int64) (tokens : List Token) :
    synchs (trimAll key tokens) = (synchs tokens).map fun s => s.trimThrough key := by
  rw [synchs, synchs, trimAll, List.filterMap_map, List.map_filterMap]
  refine List.filterMap_congr fun t _ => ?_
  cases t <;> rfl

/-- A walk leaves the synchronized variables as they are. -/
theorem synchs_walk (table : VariableTable) (key : Option Int64) (tokens : List Token)
    (stack : Stack) : synchs (walk table key tokens stack).tokens = synchs tokens := by
  induction tokens generalizing stack with
  | nil => rfl
  | cons t ts ih =>
      cases hstep : t.step table key stack with
      | error fault => rw [walk_cons_error hstep]
      | ok step =>
          rw [walk_cons_ok hstep]
          rcases Token.step_token hstep with hsame | ⟨f, g, rfl, hnext⟩
          · show synchs ([step.token] ++ _) = synchs ([t] ++ ts)
            rw [hsame, synchs_append, synchs_append, ih]
          · rw [hnext]
            exact ih step.stack

/-! ### The common key -/

theorem foldl_least {key least : Int64} {keys : List Int64} (hkey : least ≤ key)
    (hall : ∀ k ∈ keys, least ≤ k) (hmem : key = least ∨ least ∈ keys) :
    keys.foldl (fun a b => if b < a then b else a) key = least := by
  -- what has been folded so far is never below `least`, and is it once `least` has been met
  induction keys generalizing key with
  | nil =>
      rcases hmem with h | h
      · exact h
      · exact nomatch h
  | cons k ks ih =>
      have hk : least ≤ k := hall k List.mem_cons_self
      rw [List.foldl_cons]
      refine ih ?_ (fun k' hk' => hall k' (List.mem_cons_of_mem k hk')) ?_
      · split
        · exact hk
        · exact hkey
      · split
        · next hlt =>
            rcases hmem with rfl | hmem
            · exact absurd hlt (Int64.not_lt.2 hk)
            · rcases List.mem_cons.1 hmem with h | h
              · exact Or.inl h.symm
              · exact Or.inr h
        · next hge =>
            rcases hmem with h | hmem
            · exact Or.inl h
            · rcases List.mem_cons.1 hmem with h | h
              · subst h
                exact Or.inl (Int64.le_antisymm (Int64.not_lt.1 hge) hkey)
              · exact Or.inr h

/-- The least of keys is the one among them that none is below. -/
theorem leastKey?_eq_some {least : Int64} {keys : List Int64} (hmem : least ∈ keys)
    (hall : ∀ k ∈ keys, least ≤ k) : leastKey? keys = some least := by
  cases keys with
  | nil => exact nomatch hmem
  | cons key keys =>
      have hrest : ∀ k ∈ keys, least ≤ k := fun k hk => hall k (List.mem_cons_of_mem key hk)
      refine congrArg some (foldl_least (hall key List.mem_cons_self) hrest ?_)
      rcases List.mem_cons.1 hmem with h | h
      · exact Or.inl h.symm
      · exact Or.inr h

/-- One empty synchronized variable is enough for there to be no common key. -/
theorem commonKey?_eq_none {tokens : List Token} {s : Synch} (hs : s ∈ synchs tokens)
    (h : s.newestKey? = none) : commonKey? tokens = none := by
  rw [commonKey?, mapM_eq_none hs h]
  rfl

/-- The common key is the newest key of one variable, and no variable's is older. -/
theorem commonKey?_eq_some {tokens : List Token} {key : Int64}
    (hall : ∀ s ∈ synchs tokens, ∃ k, s.newestKey? = some k ∧ key ≤ k)
    (hmem : ∃ s ∈ synchs tokens, s.newestKey? = some key) : commonKey? tokens = some key := by
  have hnewest : ∀ s ∈ synchs tokens, s.newestKey? = some (s.newestKey?.getD key) := by
    intro s hs
    obtain ⟨k, hk, -⟩ := hall s hs
    rw [hk, Option.getD_some]
  rw [commonKey?, mapM_eq_pure hnewest]
  refine leastKey?_eq_some (List.mem_map.2 ?_) fun k hk => ?_
  · obtain ⟨s, hs, hkey⟩ := hmem
    exact ⟨s, hs, by rw [hkey, Option.getD_some]⟩
  · obtain ⟨s, hs, rfl⟩ := List.mem_map.1 hk
    obtain ⟨k, hk, hle⟩ := hall s hs
    rw [hk, Option.getD_some]
    exact hle

end Telemetry
