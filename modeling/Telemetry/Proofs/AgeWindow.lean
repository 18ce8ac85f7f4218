import Mathlib.Data.List.Induction
import Telemetry.Proofs.Latest
import Telemetry.Window.Retention

/-!
# Windows of an age

A history that keeps the samples of an age, whatever the order in which they come.  After every
sample it holds, in the order of their times and of their arrivals, the last of all finite
samples so far that are the newest or not too old, as many as the limit has room for
(`samples_slid`): what has been dropped for its age would be older still, and what has been
dropped for want of room has as many behind it that are no older.  So samples of different times
leave the same history in whatever order they come.
-/

namespace Telemetry

/-! ### Ages -/

theorem Word.toInt_subSaturating {a b : Int64} (h : b ≤ a) :
    (subSaturating a b).toInt = min (a.toInt - b.toInt) 9223372036854775807 := by
  have hle := Int64.le_iff_toInt_le.1 h
  rw [subSaturating, toInt_saturate]
  omega

/-- The age of a sample when the newest has the given time. -/
def ageOf (newest time : Instant) : Int := min (newest.toInt - time.toInt) 9223372036854775807

/-- Whether a sample is too old.  A range below zero counts as zero. -/
def Boundary.TooOld (b : Boundary) (range : Int64) (newest time : Instant) : Prop :=
  match b with
  | exclusive => max range.toInt 0 < ageOf newest time
  | inclusive => max range.toInt 0 ≤ ageOf newest time

namespace Boundary

variable {b : Boundary} {range : Int64} {newest time : Instant}

theorem evicts_iff (h : time ≤ newest) :
    b.evicts (Word.subSaturating newest time) (if range < 0 then 0 else range) = true ↔
      b.TooOld range newest time := by
  have hrange : (if range < 0 then (0 : Int64) else range).toInt = max range.toInt 0 := by
    split
    · next hlt =>
        have := Int64.lt_iff_toInt_lt.1 hlt
        simp only [Int64.toInt_zero] at this ⊢
        omega
    · next hge =>
        have := Int64.le_iff_toInt_le.1 (Int64.not_lt.1 hge)
        simp only [Int64.toInt_zero] at this
        omega
  cases b with
  | exclusive =>
      show decide (_ < _) = true ↔ _
      rw [decide_eq_true_eq, Int64.lt_iff_toInt_lt, hrange, Word.toInt_subSaturating h]
      rfl
  | inclusive =>
      show decide (_ ≤ _) = true ↔ _
      rw [decide_eq_true_eq, Int64.le_iff_toInt_le, hrange, Word.toInt_subSaturating h]
      rfl

/-- What is too old stays so when a newer sample comes. -/
theorem TooOld.mono {newer : Instant} (h : b.TooOld range newest time) (hle : newest ≤ newer) :
    b.TooOld range newer time := by
  have := Int64.le_iff_toInt_le.1 hle
  cases b <;> simp only [TooOld, ageOf] at h ⊢ <;> omega

/-- What is older than a sample that is too old is too old. -/
theorem TooOld.of_le {older : Instant} (h : b.TooOld range newest time) (hle : older ≤ time) :
    b.TooOld range newest older := by
  have := Int64.le_iff_toInt_le.1 hle
  cases b <;> simp only [TooOld, ageOf] at h ⊢ <;> omega

end Boundary

/-! ### Histories -/

namespace History

@[simp] theorem limit_insert (h : History) (s : Sample) : (h.insert s).limit = h.limit := by
  rw [insert]
  split
  · rw [limit_enforceLimit]
    rfl
  · rfl

@[simp] theorem limit_slideAge (b : Boundary) (h : History) (s : Sample) (range : Int64) :
    (h.slideAge b s range).limit = h.limit := by
  rw [slideAge, limit_evict, limit_insert]

/-- A finite sample goes between those that are not later and those that are. -/
theorem samples_insert {h : History} {s : Sample} {front back : List Sample}
    (hadmits : admits s = true) (hsamples : h.samples = front ++ back)
    (hfront : ∀ k ∈ front, k.time ≤ s.time) (hback : ∀ k ∈ back, s.time < k.time) :
    (h.insert s).samples =
      (front ++ s :: back).drop ((front ++ s :: back).length - h.limit) := by
  have hplace : (h.ring.place fun t => decide (t.time ≤ s.time)) = front.length :=
    Ring.place_eq _ hsamples (fun k hk => decide_eq_true (hfront k hk)) fun k hk =>
      decide_eq_false (Int64.not_le.2 (hback k hk))
  have hitems : (insertByTime s h.ring).items = front ++ s :: back := by
    have hring : h.ring.items = front ++ back := hsamples
    rw [insertByTime, Ring.items_insertAt, hplace, hring, List.take_left, List.drop_left]
  rw [insert, if_pos hadmits, samples_enforceLimit, samples_account]
  show (insertByTime s h.ring).items.drop ((insertByTime s h.ring).items.length - h.limit) = _
  rw [hitems]

/-- A sample that is not finite changes nothing. -/
theorem insert_of_not_admits {h : History} {s : Sample} (hs : admits s = false) :
    h.insert s = h := by
  rw [insert, hs, if_neg Bool.false_ne_true]

/-- What is too old stands in front, so the newest and all that are not too old are kept. -/
theorem samples_expire {b : Boundary} {range : Int64} {h : History} {front : List Sample}
    {newest : Sample} (hsamples : h.samples = front ++ [newest])
    (hsorted : (front ++ [newest]).Pairwise fun s t => s.time ≤ t.time) :
    (h.evict (h.expired b (if range < 0 then 0 else range))).samples =
      (front.filter fun s => !b.evicts (Word.subSaturating newest.time s.time)
        (if range < 0 then 0 else range)) ++ [newest] := by
  obtain ⟨hfront, -, hnewest⟩ := List.pairwise_append.1 hsorted
  have hle : ∀ s ∈ front, s.time ≤ newest.time :=
    fun s hs => hnewest s hs newest (List.mem_singleton.2 rfl)
  have hexpired : h.expired b (if range < 0 then 0 else range) =
      (front.takeWhile fun s => b.evicts (Word.subSaturating newest.time s.time)
        (if range < 0 then 0 else range)).length := by
    have hlast : h.newest? = some newest := by rw [newest?, hsamples, List.getLast?_concat]
    simp only [expired, hlast, hsamples, List.dropLast_concat]
  have hcount := (List.takeWhile_sublist (l := front) fun s : Sample =>
    b.evicts (Word.subSaturating newest.time s.time) (if range < 0 then 0 else range)).length_le
  rw [samples_evict, hexpired, hsamples, List.drop_append_of_le_length hcount,
    drop_takeWhile_eq_filter]
  refine hfront.imp_of_mem fun hx hy hxy hold => ?_
  exact (Boundary.evicts_iff (hle _ hx)).2
    (((Boundary.evicts_iff (hle _ hy)).1 hold).of_le hxy)

end History

/-! ### Arrivals -/

/-- A finite sample that came at a position of a sequence. -/
def Arrives (xs : List Sample) (a : Sample × Nat) : Prop :=
  xs[a.2]? = some a.1 ∧ History.admits a.1 = true

/-- The order of times, and of arrivals at one time. -/
def Precedes (a b : Sample × Nat) : Prop :=
  a.1.time < b.1.time ∨ a.1.time = b.1.time ∧ a.2 < b.2

/-- The last of the finite samples that have come. -/
structure Newest (xs : List Sample) (z : Sample × Nat) : Prop where
  arrives : Arrives xs z
  last : ∀ a, Arrives xs a → a = z ∨ Precedes a z

/-- A finite sample that is the newest or not too old. -/
def Stays (b : Boundary) (range : Int64) (xs : List Sample) (a : Sample × Nat) : Prop :=
  Arrives xs a ∧ ∃ z, Newest xs z ∧ (a = z ∨ ¬ b.TooOld range z.1.time a.1.time)

theorem precedes_iff {a b : Sample × Nat} :
    Precedes a b ↔ a.1.time.toInt < b.1.time.toInt ∨
      a.1.time.toInt = b.1.time.toInt ∧ a.2 < b.2 := by
  rw [Precedes, Int64.lt_iff_toInt_lt, Int64.toInt_inj]

instance : IsStrictOrder (Sample × Nat) Precedes where
  irrefl a h := by
    rw [precedes_iff] at h
    omega
  trans a b c hab hbc := by
    rw [precedes_iff] at hab hbc ⊢
    omega

theorem Precedes.le {a b : Sample × Nat} (h : Precedes a b) : a.1.time ≤ b.1.time := by
  rw [Int64.le_iff_toInt_le]
  rw [precedes_iff] at h
  omega

section Arrivals

variable {b : Boundary} {range : Int64} {xs ys : List Sample} {x : Sample} {a y z : Sample × Nat}

theorem Arrives.lt (h : Arrives xs a) : a.2 < xs.length :=
  (List.getElem?_eq_some_iff.1 h.1).1

/-- What has come after one more sample. -/
theorem arrives_concat : Arrives (xs ++ [x]) a ↔
    Arrives xs a ∨ a = (x, xs.length) ∧ History.admits x = true := by
  obtain ⟨s, i⟩ := a
  constructor
  · rintro ⟨hat, hadmits⟩
    rcases Nat.lt_or_ge i xs.length with hlt | hge
    · rw [List.getElem?_append_left hlt] at hat
      exact Or.inl ⟨hat, hadmits⟩
    · rw [List.getElem?_append_right hge] at hat
      obtain ⟨hi, hs⟩ := List.getElem?_eq_some_iff.1 hat
      rw [List.length_singleton] at hi
      obtain rfl : i = xs.length := by omega
      rw [List.getElem_singleton] at hs
      subst hs
      exact Or.inr ⟨rfl, hadmits⟩
  · rintro (h | ⟨heq, hadmits⟩)
    · exact ⟨by rw [List.getElem?_append_left h.lt, h.1], h.2⟩
    · cases heq
      exact ⟨List.getElem?_concat_length, hadmits⟩

theorem Newest.unique (hy : Newest xs y) (hz : Newest xs z) : y = z := by
  rcases hz.last y hy.arrives with h | hyz
  · exact h
  · rcases hy.last z hz.arrives with h | hzy
    · exact h.symm
    · exact absurd (Trans.trans hyz hzy) (irrefl y)

/-- Among samples that have come there is a newest. -/
theorem exists_newest (h : Arrives xs a) : ∃ z, Newest xs z := by
  induction xs using List.reverseRecOn generalizing a with
  | nil => exact nomatch h.1
  | append_singleton xs x ih =>
      by_cases hold : ∃ a, Arrives xs a
      · obtain ⟨a, ha⟩ := hold
        obtain ⟨y, hy⟩ := ih ha
        by_cases hnew : History.admits x = true ∧ y.1.time ≤ x.time
        -- the new one is not earlier than the newest so far
        · refine ⟨(x, xs.length), arrives_concat.2 (Or.inr ⟨rfl, hnew.1⟩), fun c hc => ?_⟩
          rcases arrives_concat.1 hc with hc | ⟨rfl, -⟩
          · have hle : c.1.time ≤ y.1.time := by
              rcases hy.last c hc with rfl | hlt
              · exact Int64.le_refl _
              · exact hlt.le
            have hlt := hc.lt
            have htime := Int64.le_iff_toInt_le.1 (Int64.le_trans hle hnew.2)
            right
            rw [precedes_iff]
            dsimp only
            omega
          · exact Or.inl rfl
        · refine ⟨y, arrives_concat.2 (Or.inl hy.arrives), fun c hc => ?_⟩
          rcases arrives_concat.1 hc with hc | ⟨rfl, hadmits⟩
          · exact hy.last c hc
          · exact Or.inr (Or.inl (Int64.not_le.1 fun hle => hnew ⟨hadmits, hle⟩))
      · obtain ⟨rfl, hadmits⟩ := (arrives_concat.1 h).resolve_left fun ha => hold ⟨a, ha⟩
        refine ⟨(x, xs.length), h, fun c hc => ?_⟩
        rcases arrives_concat.1 hc with hc | ⟨rfl, -⟩
        · exact absurd ⟨c, hc⟩ hold
        · exact Or.inl rfl

/-- What stays after one more sample is what has stayed and the new one, less what is too old
for the newest. -/
theorem stays_concat (hz : Newest (xs ++ [x]) z) :
    Stays b range (xs ++ [x]) a ↔
      (Stays b range xs a ∨ a = (x, xs.length) ∧ History.admits x = true) ∧
        (a = z ∨ ¬ b.TooOld range z.1.time a.1.time) := by
  constructor
  · rintro ⟨ha, z', hz', hstays⟩
    obtain rfl := hz'.unique hz
    refine ⟨?_, hstays⟩
    rcases arrives_concat.1 ha with hold | hnew
    · obtain ⟨y, hy⟩ := exists_newest hold
      refine Or.inl ⟨hold, y, hy, ?_⟩
      rcases hz.last y (arrives_concat.2 (Or.inl hy.arrives)) with rfl | hyz
      · exact hstays
      · rcases hstays with rfl | hyoung
        -- the newest of all has come before, so it was the newest then
        · rcases hy.last a hold with rfl | hay
          · exact Or.inl rfl
          · exact absurd (Trans.trans hyz hay) (irrefl y)
        · exact Or.inr fun htoo => hyoung (htoo.mono hyz.le)
    · exact Or.inr hnew
  · rintro ⟨hbefore, hstays⟩
    refine ⟨arrives_concat.2 ?_, z, hz, hstays⟩
    exact hbefore.imp_left And.left

/-- A sample that comes next has its place between those that are not later and those that
are. -/
theorem exists_place {kept : List (Sample × Nat)} (hsorted : kept.Pairwise Precedes)
    (harrives : ∀ k ∈ kept, Arrives xs k) (x : Sample) :
    ∃ front back, kept = front ++ back ∧
      (∀ k ∈ front, k.1.time ≤ x.time ∧ Precedes k (x, xs.length)) ∧
      ∀ k ∈ back, x.time < k.1.time ∧ Precedes (x, xs.length) k := by
  induction kept with
  | nil => exact ⟨[], [], rfl, fun _ hk => absurd hk List.not_mem_nil,
      fun _ hk => absurd hk List.not_mem_nil⟩
  | cons k kept ih =>
      obtain ⟨hk, hkept⟩ := List.pairwise_cons.1 hsorted
      by_cases hle : k.1.time ≤ x.time
      · obtain ⟨front, back, rfl, hfront, hback⟩ :=
          ih hkept fun c hc => harrives c (List.mem_cons_of_mem k hc)
        refine ⟨k :: front, back, rfl, fun c hc => ?_, hback⟩
        rcases List.mem_cons.1 hc with rfl | hc
        · have hlt := (harrives c List.mem_cons_self).lt
          have htime := Int64.le_iff_toInt_le.1 hle
          refine ⟨hle, precedes_iff.2 ?_⟩
          dsimp only
          omega
        · exact hfront c hc
      · have hlt := Int64.not_le.1 hle
        refine ⟨[], k :: kept, rfl, fun _ hc => absurd hc List.not_mem_nil, fun c hc => ?_⟩
        have hlater : x.time < c.1.time := by
          rcases List.mem_cons.1 hc with rfl | hc
          · exact hlt
          · exact Int64.lt_of_lt_of_le hlt (hk c hc).le
        exact ⟨hlater, Or.inl hlater⟩

/-- What has come, in order. -/
theorem exists_sorted (xs : List Sample) :
    ∃ all : List (Sample × Nat), all.Pairwise Precedes ∧ ∀ a, a ∈ all ↔ Arrives xs a := by
  induction xs using List.reverseRecOn with
  | nil => exact ⟨[], List.Pairwise.nil, fun a =>
      ⟨fun ha => absurd ha List.not_mem_nil, fun ha => nomatch ha.1⟩⟩
  | append_singleton xs x ih =>
      obtain ⟨all, hsorted, hall⟩ := ih
      by_cases hadmits : History.admits x = true
      · obtain ⟨front, back, rfl, hfront, hback⟩ :=
          exists_place hsorted (fun k hk => (hall k).1 hk) x
        refine ⟨front ++ (x, xs.length) :: back, pairwise_append_cons hsorted
          (fun k hk => (hfront k hk).2) fun k hk => (hback k hk).2, fun a => ?_⟩
        rw [mem_append_cons, hall, arrives_concat]
        exact or_congr Iff.rfl (and_iff_left hadmits).symm
      · refine ⟨all, hsorted, fun a => ?_⟩
        rw [hall, arrives_concat]
        exact (or_iff_left fun hnew => hadmits hnew.2).symm

end Arrivals

/-! ### Runs -/

/-- The history after samples have been added one by one under one range. -/
def History.slid (b : Boundary) (limit : Nat) (range : Int64) (xs : List Sample) : History :=
  xs.foldl (fun h s => h.slideAge b s range) (.empty limit)

/-- A history holds the last samples of those that stay. -/
structure HoldsLatest (b : Boundary) (limit : Nat) (range : Int64) (xs : List Sample)
    (h : History) : Prop where
  limit_eq : h.limit = limit
  latest : ∃ kept, h.samples = kept.map Prod.fst ∧
    Latest Precedes limit (Stays b range xs) kept

namespace HoldsLatest

variable {b : Boundary} {limit : Nat} {range : Int64} {xs : List Sample} {h : History}

/-- The new sample takes its place before anything is dropped for its age. -/
theorem insert (hholds : HoldsLatest b limit range xs h) (x : Sample) :
    ∃ kept, (h.insert x).samples = kept.map Prod.fst ∧
      Latest Precedes limit
        (fun a => Stays b range xs a ∨ a = (x, xs.length) ∧ History.admits x = true) kept := by
  obtain ⟨kept, hsamples, hlatest⟩ := hholds.latest
  cases hadmits : History.admits x with
  | false =>
      rw [History.insert_of_not_admits hadmits]
      refine ⟨kept, hsamples, hlatest.congr fun a => ?_⟩
      exact (or_iff_left fun hnew => Bool.false_ne_true hnew.2).symm
  | true =>
      obtain ⟨front, back, rfl, hfront, hback⟩ :=
        exists_place hlatest.sorted (fun k hk => (hlatest.sound k hk).1) x
      have hnew := hlatest.insert (fun k hk => (hfront k hk).2) fun k hk => (hback k hk).2
      refine ⟨_, ?_, hnew.congr fun a => or_congr Iff.rfl (and_iff_left rfl).symm⟩
      rw [List.map_append] at hsamples
      rw [History.samples_insert hadmits hsamples ?_ ?_, hholds.limit_eq, List.map_drop,
        List.map_append, List.map_cons]
      · simp only [List.length_append, List.length_cons, List.length_map]
      · intro k hk
        obtain ⟨a, ha, rfl⟩ := List.mem_map.1 hk
        exact (hfront a ha).1
      · intro k hk
        obtain ⟨a, ha, rfl⟩ := List.mem_map.1 hk
        exact (hback a ha).1

open Classical in
/-- Of samples in order, those are kept that are the newest or not too old. -/
theorem samples_expire {front : List (Sample × Nat)} {z : Sample × Nat}
    (hsamples : h.samples = (front ++ [z]).map Prod.fst)
    (hsorted : (front ++ [z]).Pairwise Precedes) :
    (h.evict (h.expired b (if range < 0 then 0 else range))).samples =
      ((front ++ [z]).filter fun a =>
        decide (a = z ∨ ¬ b.TooOld range z.1.time a.1.time)).map Prod.fst := by
  have htimes : (front.map Prod.fst ++ [z.1]).Pairwise fun s t => s.time ≤ t.time := by
    have hmap : front.map Prod.fst ++ [z.1] = (front ++ [z]).map Prod.fst := by
      rw [List.map_append, List.map_singleton]
    rw [hmap, List.pairwise_map]
    exact hsorted.imp Precedes.le
  rw [List.map_append, List.map_singleton] at hsamples
  have hlast : [z].filter (fun a => decide (a = z ∨ ¬ b.TooOld range z.1.time a.1.time)) = [z] :=
    List.filter_eq_self.2 fun a ha => decide_eq_true (Or.inl (List.mem_singleton.1 ha))
  rw [History.samples_expire hsamples htimes, List.filter_append, hlast, List.map_append,
    List.map_singleton, List.filter_map]
  congr 2
  refine List.filter_congr fun a ha => ?_
  have hbefore : Precedes a z :=
    (List.pairwise_append.1 hsorted).2.2 a ha z (List.mem_singleton.2 rfl)
  have hne : a ≠ z := fun heq => irrefl z (heq ▸ hbefore)
  rw [Function.comp_apply, Bool.eq_iff_iff, Bool.not_eq_true', ← Bool.not_eq_true,
    Boundary.evicts_iff hbefore.le, decide_eq_true_eq]
  exact (or_iff_right hne).symm

/-- **One sample more.** -/
theorem slideAge (hlimit : 1 ≤ limit) (hholds : HoldsLatest b limit range xs h) (x : Sample) :
    HoldsLatest b limit range (xs ++ [x]) (h.slideAge b x range) := by
  classical
  refine ⟨by rw [History.limit_slideAge, hholds.limit_eq], ?_⟩
  obtain ⟨kept, hsamples, hlatest⟩ := hholds.insert x
  have harrives : ∀ a, (Stays b range xs a ∨ a = (x, xs.length) ∧ History.admits x = true) →
      Arrives (xs ++ [x]) a := fun a ha => arrives_concat.2 (ha.imp_left And.left)
  rw [History.slideAge]
  by_cases hsome : ∃ a, Arrives (xs ++ [x]) a
  · obtain ⟨a, ha⟩ := hsome
    obtain ⟨z, hz⟩ := exists_newest ha
    have hstays : Stays b range (xs ++ [x]) z := ⟨hz.arrives, z, hz, Or.inl rfl⟩
    obtain ⟨front, rfl⟩ := hlatest.exists_concat hlimit ((stays_concat hz).1 hstays).1
      fun c hc => hz.last c (harrives c hc)
    have hfilter := hlatest.filter
      (fun c => decide (c = z ∨ ¬ b.TooOld range z.1.time c.1.time)) ?_
    · refine ⟨_, samples_expire hsamples hlatest.sorted, hfilter.congr fun c => ?_⟩
      rw [decide_eq_true_eq]
      exact (stays_concat hz).symm
    -- nothing behind what is not too old is too old
    · intro c k hc hk hstay hbefore
      rw [decide_eq_true_eq] at hstay ⊢
      rcases hz.last k (harrives k hk) with rfl | hkz
      · exact Or.inl rfl
      · rcases hstay with rfl | hyoung
        · exact absurd (Trans.trans hbefore hkz) (irrefl c)
        · exact Or.inr fun htoo => hyoung (htoo.of_le hbefore.le)
  · -- nothing finite has come
    have hnone : ∀ a, ¬ Stays b range (xs ++ [x]) a := fun a ha => hsome ⟨a, ha.1⟩
    obtain rfl : kept = [] := List.eq_nil_iff_forall_not_mem.2 fun a ha =>
      hsome ⟨a, harrives a (hlatest.sound a ha)⟩
    refine ⟨[], ?_, Latest.nil hnone⟩
    rw [History.samples_evict, hsamples]
    exact List.drop_nil

/-- Every history of a run holds the last of the samples that stay. -/
theorem of_slid (b : Boundary) {limit : Nat} (hlimit : 1 ≤ limit) (range : Int64)
    (xs : List Sample) : HoldsLatest b limit range xs (.slid b limit range xs) := by
  induction xs using List.reverseRecOn with
  | nil =>
      refine ⟨Nat.max_eq_left hlimit, [], rfl, Latest.nil fun a ha => ?_⟩
      exact nomatch ha.1.1
  | append_singleton xs x ih =>
      have hstep : History.slid b limit range (xs ++ [x]) =
          (History.slid b limit range xs).slideAge b x range := List.foldl_concat ..
      rw [hstep]
      exact ih.slideAge hlimit x

end HoldsLatest

/-! ### The order of arrival -/

section Order

variable {b : Boundary} {limit : Nat} {range : Int64} {xs ys : List Sample}

/-- The order of times alone. -/
def Sample.Before (s t : Sample) : Prop := s.time < t.time

instance : IsStrictOrder Sample Sample.Before where
  irrefl _ := Int64.lt_irrefl
  trans _ _ _ := Int64.lt_trans

/-- When no two samples have one time, an arrival is known by its time. -/
theorem Arrives.eq_of_time {a c : Sample × Nat} (hdistinct : (xs.map Sample.time).Nodup)
    (ha : Arrives xs a) (hc : Arrives xs c) (htime : a.1.time = c.1.time) : a = c := by
  have hat : ∀ {d : Sample × Nat}, Arrives xs d → (xs.map Sample.time)[d.2]? = some d.1.time := by
    intro d hd
    rw [List.getElem?_map, hd.1]
    rfl
  have hindex : a.2 = c.2 := by
    have hlt : a.2 < (xs.map Sample.time).length := by
      rw [List.length_map]
      exact ha.lt
    refine (List.getElem?_inj hlt hdistinct).1 ?_
    rw [hat ha, hat hc, htime]
  have hsample : a.1 = c.1 := Option.some.inj (ha.1.symm.trans (hindex ▸ hc.1))
  exact Prod.ext hsample hindex

theorem exists_arrives_of_perm {a : Sample × Nat} (h : xs.Perm ys) (ha : Arrives xs a) :
    ∃ c, Arrives ys c ∧ c.1 = a.1 := by
  obtain ⟨i, hi⟩ := List.mem_iff_getElem?.1 (h.mem_iff.1 (List.mem_of_getElem? ha.1))
  exact ⟨(a.1, i), ⟨hi, ha.2⟩, rfl⟩

/-- What stays does not depend on the order in which samples of different times come. -/
theorem exists_stays_of_perm {a : Sample × Nat} (h : xs.Perm ys)
    (hdistinct : (xs.map Sample.time).Nodup) (ha : Stays b range xs a) :
    ∃ c, Stays b range ys c ∧ c.1 = a.1 := by
  have hdistinct' : (ys.map Sample.time).Nodup := (h.map _).nodup_iff.1 hdistinct
  obtain ⟨harrives, z, hz, hstays⟩ := ha
  obtain ⟨c, hc, hca⟩ := exists_arrives_of_perm h harrives
  obtain ⟨w, hw, hwz⟩ := exists_arrives_of_perm h hz.arrives
  have hnewest : Newest ys w := by
    refine ⟨hw, fun d hd => ?_⟩
    obtain ⟨d', hd', hdd'⟩ := exists_arrives_of_perm h.symm hd
    by_cases htime : d.1.time = w.1.time
    · exact Or.inl (hd.eq_of_time hdistinct' hw htime)
    · right
      rw [← hdd', hwz] at htime
      rcases hz.last d' hd' with rfl | hlt
      · exact absurd rfl htime
      · refine Or.inl (Int64.lt_of_le_of_ne ?_ ?_)
        · rw [← hdd', hwz]
          exact hlt.le
        · rwa [← hdd', hwz]
  refine ⟨c, ⟨hc, w, hnewest, ?_⟩, hca⟩
  rcases hstays with rfl | hyoung
  · exact Or.inl (hc.eq_of_time hdistinct' hw (by rw [hca, hwz]))
  · exact Or.inr (by rwa [hca, hwz])

/-- Samples of different times are the last in order of their times. -/
theorem HoldsLatest.byTime {h : History} (hholds : HoldsLatest b limit range xs h)
    (hdistinct : (xs.map Sample.time).Nodup) :
    Latest Sample.Before limit (fun s => ∃ a, Stays b range xs a ∧ a.1 = s) h.samples := by
  obtain ⟨kept, hsamples, hlatest⟩ := hholds.latest
  rw [hsamples]
  refine hlatest.map Prod.fst fun a c ha hc hbefore => ?_
  refine Int64.lt_of_le_of_ne hbefore.le fun htime => ?_
  obtain rfl := ha.1.eq_of_time hdistinct hc.1 htime
  exact irrefl a hbefore

/-- **Windows of an age.**  Let samples be added one by one under one range, which counts as zero
if it is below zero, to a history that has room for at least one.  After any number of them the
history holds the last of all finite samples so far that are the newest or not too old, in the
order of their times and arrivals, as many as there is room for.  So when no two samples have one
time, the order in which they come makes no difference. -/
theorem samples_slid (b : Boundary) (hlimit : 1 ≤ limit) (range : Int64) :
    (∀ xs, ∃ staying : List (Sample × Nat), staying.Pairwise Precedes ∧
      (∀ a, a ∈ staying ↔ Stays b range xs a) ∧
      (History.slid b limit range xs).samples =
        (staying.drop (staying.length - limit)).map Prod.fst) ∧
      ∀ xs ys, xs.Perm ys → (xs.map Sample.time).Nodup →
        (History.slid b limit range xs).samples = (History.slid b limit range ys).samples := by
  classical
  refine ⟨fun xs => ?_, fun xs ys hperm hdistinct => ?_⟩
  · obtain ⟨all, hsorted, hall⟩ := exists_sorted xs
    have hstaying : ∀ a, a ∈ all.filter (fun a => decide (Stays b range xs a)) ↔
        Stays b range xs a := by
      intro a
      rw [List.mem_filter, hall, decide_eq_true_eq]
      exact and_iff_right_of_imp And.left
    obtain ⟨kept, hsamples, hlatest⟩ := (HoldsLatest.of_slid b hlimit range xs).latest
    have hsorted' : (all.filter fun a => decide (Stays b range xs a)).Pairwise Precedes :=
      hsorted.sublist List.filter_sublist
    refine ⟨_, hsorted', hstaying, ?_⟩
    rw [hsamples, hlatest.eq_drop hsorted' hstaying]
  · have hdistinct' : (ys.map Sample.time).Nodup := (hperm.map _).nodup_iff.1 hdistinct
    have hx := (HoldsLatest.of_slid b hlimit range xs).byTime hdistinct
    have hy := (HoldsLatest.of_slid b hlimit range ys).byTime hdistinct'
    refine hx.unique (hy.congr fun s => ⟨?_, ?_⟩)
    · rintro ⟨a, ha, rfl⟩
      exact exists_stays_of_perm hperm.symm hdistinct' ha
    · rintro ⟨a, ha, rfl⟩
      exact exists_stays_of_perm hperm hdistinct ha

/-- A sample that comes late is kept as one that comes in time. -/
theorem samples_slid_late :
    (1 ≤ 2 ∧ ([10, 30, 20] : List Int64).Nodup) ∧
      (History.slid .exclusive 2 15 [⟨10, 1.0⟩, ⟨30, 2.0⟩, ⟨20, 3.0⟩]).samples =
        (History.slid .exclusive 2 15 [⟨20, 3.0⟩, ⟨10, 1.0⟩, ⟨30, 2.0⟩]).samples ∧
      (History.slid .exclusive 2 15 [⟨20, 3.0⟩, ⟨10, 1.0⟩, ⟨30, 2.0⟩]).samples.map Sample.time =
        [20, 30] := by
  have hdistinct : ([10, 30, 20] : List Int64).Nodup := by decide
  have hperm : ([⟨10, 1.0⟩, ⟨30, 2.0⟩] ++ [⟨20, 3.0⟩] : List Sample).Perm
      ([⟨20, 3.0⟩] ++ [⟨10, 1.0⟩, ⟨30, 2.0⟩]) := List.perm_append_comm
  refine ⟨⟨by decide, hdistinct⟩, ?_, by decide +kernel⟩
  exact (samples_slid .exclusive (by decide) 15).2 _ _ hperm hdistinct

end Order

end Telemetry
