import Telemetry.Variable

/-!
# Synchronized variables

A synchronized variable buffers the samples of its variable under keys: the times
of the samples, cut to a resolution. All synchronized variables of an expression
report the sample of one common key, the oldest among their newest keys, and
forget what is not newer once the last of them has reported.
-/

namespace Telemetry

/-- Samples by key, the keys ascending and no two of them the same. -/
@[ext] structure Buffer where
  entries : List (Int64 × Timed)
  ascending : (entries.map Prod.fst).Pairwise (· < ·)

namespace Buffer

/-- A buffer without samples. -/
def empty : Buffer := ⟨[], .nil⟩

/-- The number of samples. -/
def size (b : Buffer) : Nat := b.entries.length

/-- Entries with a sample under a key, in place of what was there. -/
def insertKey (key : Int64) (x : Timed) : List (Int64 × Timed) → List (Int64 × Timed)
  | [] => [(key, x)]
  | (k, y) :: rest =>
    if key < k then (key, x) :: (k, y) :: rest
    else if key = k then (key, x) :: rest
    else (k, y) :: insertKey key x rest

/-- A key that is there was put there or was there before. -/
theorem mem_keys_insertKey {key k : Int64} {x : Timed} {entries : List (Int64 × Timed)}
    (h : k ∈ (insertKey key x entries).map Prod.fst) : k = key ∨ k ∈ entries.map Prod.fst := by
  induction entries with
  | nil => exact Or.inl (List.mem_singleton.1 h)
  | cons entry rest ih =>
    obtain ⟨k', y⟩ := entry
    rw [insertKey] at h
    split at h
    · exact List.mem_cons.1 h
    · split at h
      · exact (List.mem_cons.1 h).imp_right (List.mem_cons_of_mem _)
      · rcases List.mem_cons.1 h with h | h
        · exact Or.inr (List.mem_cons.2 (Or.inl h))
        · exact (ih h).imp_right (List.mem_cons_of_mem _)

/-- A sample that is put under its key keeps the keys ascending. -/
theorem ascending_insertKey {key : Int64} {x : Timed} {entries : List (Int64 × Timed)}
    (h : (entries.map Prod.fst).Pairwise (· < ·)) :
    ((insertKey key x entries).map Prod.fst).Pairwise (· < ·) := by
  induction entries with
  | nil => exact List.pairwise_singleton _ _
  | cons entry rest ih =>
    obtain ⟨k, y⟩ := entry
    obtain ⟨hk, hrest⟩ := List.pairwise_cons.1 h
    rw [insertKey]
    split
    case isTrue hlt =>
      refine List.pairwise_cons.2 ⟨fun k' hk' => ?_, h⟩
      rcases List.mem_cons.1 hk' with rfl | hk'
      · exact hlt
      · exact Int64.lt_trans hlt (hk k' hk')
    case isFalse hnot =>
      split
      case isTrue heq =>
        subst heq
        exact h
      case isFalse hne =>
        have hlt : k < key := Int64.lt_of_le_of_ne (Int64.not_lt.1 hnot) fun heq => hne heq.symm
        refine List.pairwise_cons.2 ⟨fun k' hk' => ?_, ih hrest⟩
        rcases mem_keys_insertKey hk' with rfl | hk'
        · exact hlt
        · exact hk k' hk'

/-- The buffer with a sample under a key, in place of what was there. -/
def insert (b : Buffer) (key : Int64) (x : Timed) : Buffer :=
  ⟨insertKey key x b.entries, ascending_insertKey b.ascending⟩

/-- The buffer without its oldest samples. -/
def drop (b : Buffer) (count : Nat) : Buffer :=
  ⟨b.entries.drop count, b.ascending.sublist ((List.drop_sublist count _).map _)⟩

/-- The samples under the keys that a test accepts. -/
def filter (b : Buffer) (p : Int64 → Bool) : Buffer :=
  ⟨b.entries.filter fun entry => p entry.1, b.ascending.sublist (List.filter_sublist.map _)⟩

/-- The sample under a key. -/
def lookup (b : Buffer) (key : Int64) : Option Timed := b.entries.lookup key

end Buffer

/-- A variable with the buffer of its samples. -/
structure Synch where
  /-- The position of the variable. -/
  source : Nat
  buffer : Buffer := .empty
  /-- The time of the sample that was taken last. -/
  lastTime : Option Instant := none
  resolution : Int64
  limit : Nat

namespace Synch

/-- A synchronized variable that has taken nothing yet. -/
def empty (source : Nat) (resolution : Int64) (limit : Nat) : Synch :=
  { source := source
    resolution := if resolution < 1 then 1 else resolution
    limit := max limit 1 }

/-- The number of samples that are buffered. -/
def size (s : Synch) : Nat := s.buffer.size

/-- Whether no sample is buffered. -/
def isEmpty (s : Synch) : Bool := s.buffer.entries.isEmpty

/-- The newest key. -/
def newestKey? (s : Synch) : Option Int64 := s.buffer.entries.getLast?.map (·.1)

/-- Takes the sample of a variable that has been set, unless the sample taken last
has its time; keeps the newest keys up to the limit. -/
def observe (s : Synch) (v : Variable) : Synch :=
  if !v.isSet || s.lastTime == some v.sample.time then s
  else
    let key := Calendar.floorTo v.sample.time s.resolution
    let buffer := s.buffer.insert key v.sample
    { s with
      lastTime := some v.sample.time
      buffer := buffer.drop (buffer.size - s.limit) }

/-- The sample under a key, which becomes its time. -/
def report (s : Synch) (key : Int64) : Outcome Timed :=
  match s.buffer.lookup key with
  | some x => .ok ⟨x.value, key⟩
  | none => .error .synchronizationUnavailable

/-- Forgets the keys up to and including `key`. -/
def trimThrough (s : Synch) (key : Int64) : Synch :=
  { s with buffer := s.buffer.filter fun k => key < k }

end Synch

end Telemetry
