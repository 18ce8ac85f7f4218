import Mathlib.Data.List.Induction
import Telemetry.Proofs.AgeWindow
import Telemetry.Proofs.ArrivalOrder

/-!
# The sums that a history carries

All that can be done with a history (`History.Update`): samples are added at its end or in order of
time, the oldest are dropped, all are dropped.  The sums of the values and of their squares go along
by two ways.  Some updates make them anew from what is left (`History.renews`), and the others add
what they bring to the sums there are.

* **Bounds** (`History.WellKept`): no update leaves more samples than the limit, or one that is not
  finite.
* **Order** (`History.Carries`): the sums are folded over the samples that are held, but in the
  order in which the sums have come to know them.  An update that makes them anew sets this order to
  that of the history (`History.summed_update`), any other puts what it brings behind it
  (`History.Carries.update`).
* **The results** (`History.carried_sums`): after any updates the sums are, to the last bit, those
  of what was held when they were last made anew and, behind that, of what has come since.
-/

namespace Telemetry

namespace History

/-- What is done with a history. -/
inductive Update where
  /-- Adds a sample at the end. -/
  | append (s : Sample)
  /-- Adds a sample in order of time. -/
  | insert (s : Sample)
  /-- Drops so many of the oldest samples. -/
  | evict (count : Nat)
  /-- Keeps so many of the newest samples. -/
  | keepNewest (count : Nat)
  | clear

/-- The history after an update. -/
def update (h : History) : Update → History
  | .append s => h.append s
  | .insert s => h.insert s
  | .evict count => h.evict count
  | .keepNewest count => h.keepNewest count
  | .clear => h.clear

/-- The history after updates, in order. -/
def updates (h : History) (us : List Update) : History := us.foldl update h

/-- The sample that an update adds, if it adds one. -/
def Update.brings : Update → List Sample
  | .append s | .insert s => finite [s]
  | .evict _ | .keepNewest _ | .clear => []

/-- The samples that updates add, in the order of their arrival. -/
def arrived (us : List Update) : List Sample := us.flatMap Update.brings

/-- Whether an update makes the sums anew: it drops samples that it has been told to drop or that
there is no room for, or it clears the history. -/
def renews (h : History) : Update → Bool
  | .append s | .insert s => admits s && decide (h.limit ≤ h.length)
  | .evict count => decide (count ≠ 0)
  | .keepNewest count => decide (count < h.length)
  | .clear => true

/-- Whether the sample that an update adds goes to the end. -/
def landsLast (h : History) : Update → Bool
  | .insert s => !admits s || h.ring.place (fun t => decide (t.time ≤ s.time)) == h.length
  | _ => true

/-- Whether something is true of every update and the history that it meets. -/
def always (p : History → Update → Bool) (h : History) : List Update → Bool
  | [] => true
  | u :: us => p h u && (h.update u).always p us

/-- Whether no update makes the sums anew. -/
def steady (h : History) (us : List Update) : Bool := h.always (fun h u => !h.renews u) us

/-! ### One update -/

section Update

variable {h : History} {u : Update} {s : Sample} {r : Ring Sample} {order : List Sample}

/-- The history with a sample that has been put into the ring. -/
def withSample (h : History) (r : Ring Sample) (s : Sample) : History :=
  (account { h with ring := r } s.value).enforceLimit

theorem enforceLimit_of_le (hroom : h.length ≤ h.limit) : h.enforceLimit = h := if_pos hroom

/-- Wherever a sample is put, it is among the others. -/
theorem insertByTime_perm (s : Sample) (r : Ring Sample) :
    (insertByTime s r).items.Perm (r.items ++ [s]) := by
  rw [insertByTime, Ring.items_insertAt]
  refine List.perm_middle.trans ?_
  rw [List.take_append_drop]
  exact (List.perm_append_singleton s r.items).symm

theorem insertByTime_last (hplace : r.place (fun t => decide (t.time ≤ s.time)) = r.items.length) :
    (insertByTime s r).items = r.items ++ [s] := by
  rw [insertByTime, Ring.items_insertAt, hplace, List.take_length, List.drop_length]

/-- **What an update does.**  It puts a finite sample into the ring, or drops from the front, or
clears. -/
theorem update_cases (h : History) (u : Update) :
    (∃ s r, u.brings = [s] ∧ r.items.Perm (h.samples ++ [s]) ∧
      (h.landsLast u = true → r.items = h.samples ++ [s]) ∧
      h.update u = h.withSample r s ∧ h.renews u = decide (h.limit ≤ h.length)) ∨
    (∃ count, u.brings = [] ∧ h.update u = h.evict count ∧ h.renews u = decide (count ≠ 0)) ∨
    (u.brings = [] ∧ h.update u = h.clear ∧ h.renews u = true) := by
  have hbrings : ∀ s, finite [s] = if admits s = true then [s] else [] := by
    intro s
    rw [finite, List.filter_singleton]
    cases admits s <;> rfl
  cases u with
  | append s =>
      by_cases hs : admits s = true
      · have hitems := Ring.items_push h.ring s
        exact Or.inl ⟨s, h.ring.push s, (hbrings s).trans (if_pos hs), List.Perm.of_eq hitems,
          fun _ => hitems, if_pos hs, by rw [renews, hs, Bool.true_and]⟩
      · refine Or.inr (Or.inl ⟨0, (hbrings s).trans (if_neg hs), if_neg hs, ?_⟩)
        rw [renews, Bool.eq_false_iff.2 hs, Bool.false_and]
        rfl
  | insert s =>
      by_cases hs : admits s = true
      · refine Or.inl ⟨s, insertByTime s h.ring, (hbrings s).trans (if_pos hs),
          insertByTime_perm s h.ring, fun hlast => ?_, if_pos hs,
          by rw [renews, hs, Bool.true_and]⟩
        rw [landsLast, hs, Bool.not_true, Bool.false_or, beq_iff_eq] at hlast
        exact insertByTime_last hlast
      · refine Or.inr (Or.inl ⟨0, (hbrings s).trans (if_neg hs), if_neg hs, ?_⟩)
        rw [renews, Bool.eq_false_iff.2 hs, Bool.false_and]
        rfl
  | evict count => exact Or.inr (Or.inl ⟨count, rfl, rfl, rfl⟩)
  | keepNewest count =>
      refine Or.inr (Or.inl ⟨h.length - count, rfl, rfl, ?_⟩)
      exact decide_eq_decide.2 (by omega)
  | clear => exact Or.inr (Or.inr ⟨rfl, rfl, rfl⟩)

/-- An update leaves the end of what was held and of what it brings. -/
theorem samples_update (h : History) (u : Update) :
    ∃ xs : List Sample, xs.Perm (h.samples ++ u.brings) ∧ (h.update u).samples <:+ xs := by
  rcases h.update_cases u with ⟨s, r, hbrings, hperm, -, hupdate, -⟩ |
    ⟨count, hbrings, hupdate, -⟩ | ⟨hbrings, hupdate, -⟩
  · refine ⟨r.items, hbrings ▸ hperm, ?_⟩
    rw [hupdate, withSample, samples_enforceLimit]
    exact List.drop_suffix _ _
  · refine ⟨h.samples, by rw [hbrings, List.append_nil], ?_⟩
    rw [hupdate, samples_evict]
    exact List.drop_suffix _ _
  · refine ⟨h.samples, by rw [hbrings, List.append_nil], ?_⟩
    rw [hupdate, samples_clear]
    exact List.nil_suffix

@[simp] theorem limit_update (h : History) (u : Update) : (h.update u).limit = h.limit := by
  rcases h.update_cases u with ⟨s, r, -, -, -, hupdate, -⟩ | ⟨count, -, hupdate, -⟩ |
    ⟨-, hupdate, -⟩
  · rw [hupdate, withSample, limit_enforceLimit]
    rfl
  · rw [hupdate, limit_evict]
  · rw [hupdate, limit_clear]

theorem length_update_le (hbounded : h.length ≤ h.limit) (u : Update) :
    (h.update u).length ≤ h.limit := by
  rcases h.update_cases u with ⟨s, r, -, -, -, hupdate, -⟩ | ⟨count, -, hupdate, -⟩ |
    ⟨-, hupdate, -⟩
  · rw [hupdate, withSample, length, samples_enforceLimit, List.length_drop]
    show r.items.length - (r.items.length - h.limit) ≤ h.limit
    omega
  · rw [hupdate, length, samples_evict, List.length_drop]
    exact (Nat.sub_le _ _).trans hbounded
  · rw [hupdate, length, samples_clear]
    exact Nat.zero_le _

theorem admits_of_mem_brings (hs : s ∈ u.brings) : admits s = true := by
  cases u with
  | append t | insert t => exact (List.mem_filter.1 hs).2
  | evict | keepNewest | clear => cases hs

/-- A history under a limit that holds finite samples and has room for them. -/
structure WellKept (limit : Nat) (h : History) : Prop where
  limit_eq : h.limit = limit
  bounded : h.length ≤ limit
  finite : ∀ s ∈ h.samples, admits s = true

theorem WellKept.update {limit : Nat} (hkept : WellKept limit h) (u : Update) :
    WellKept limit (h.update u) := by
  refine ⟨(limit_update h u).trans hkept.limit_eq, ?_, fun s hs => ?_⟩
  · have hbounded := length_update_le (hkept.bounded.trans_eq hkept.limit_eq.symm) u
    rwa [hkept.limit_eq] at hbounded
  · obtain ⟨xs, hperm, hsuffix⟩ := h.samples_update u
    rcases List.mem_append.1 (hperm.mem_iff.1 (hsuffix.subset hs)) with hold | hnew
    · exact hkept.finite s hold
    · exact admits_of_mem_brings hnew

/-- The sums of a history are folded over its samples, taken in an order of their own. -/
structure Carries (h : History) (order : List Sample) : Prop where
  perm : order.Perm h.samples
  sums : (h.sum, h.squares) = sumsOf order

theorem Summed.carries (hsummed : h.Summed) : h.Carries h.samples :=
  ⟨List.Perm.refl _, hsummed⟩

theorem summed_evict {count : Nat} (hcount : count ≠ 0) : (h.evict count).Summed := by
  rw [evict, if_neg hcount]
  exact summed_resum _

theorem summed_enforceLimit (hover : h.limit < h.length) : h.enforceLimit.Summed := by
  rw [enforceLimit, if_neg (Nat.not_le.2 hover)]
  exact summed_evict (Nat.sub_ne_zero_of_lt hover)

/-- An update that makes the sums anew has them in the order of the history. -/
theorem summed_update (hrenews : h.renews u = true) : (h.update u).Summed := by
  rcases h.update_cases u with ⟨s, r, -, hperm, -, hupdate, hfull⟩ | ⟨count, -, hupdate, hsome⟩ |
    ⟨-, hupdate, -⟩
  · rw [hupdate]
    refine summed_enforceLimit ?_
    have hlength := hperm.length_eq
    rw [List.length_append, List.length_singleton] at hlength
    have hlimit : h.limit ≤ h.samples.length := of_decide_eq_true (hfull.symm.trans hrenews)
    show h.limit < r.items.length
    omega
  · rw [hupdate]
    exact summed_evict (of_decide_eq_true (hsome.symm.trans hrenews))
  · rw [hupdate]
    rfl

/-- **What an update does that does not make the sums anew**: it puts a sample into the ring, where
there is room for it, and into the sums, or nothing. -/
theorem update_of_steady (hsteady : h.renews u = false) :
    (∃ s r, u.brings = [s] ∧ r.items.Perm (h.samples ++ [s]) ∧
      (h.landsLast u = true → r.items = h.samples ++ [s]) ∧
      h.update u = account { h with ring := r } s.value) ∨
    (u.brings = [] ∧ h.update u = h) := by
  rcases h.update_cases u with ⟨s, r, hbrings, hperm, hlast, hupdate, hrenews⟩ |
    ⟨count, hbrings, hupdate, hrenews⟩ | ⟨-, -, hrenews⟩
  · refine Or.inl ⟨s, r, hbrings, hperm, hlast, hupdate.trans (enforceLimit_of_le ?_)⟩
    have hlength := hperm.length_eq
    rw [List.length_append, List.length_singleton] at hlength
    have hroom : ¬ h.limit ≤ h.samples.length :=
      of_decide_eq_false (hrenews.symm.trans hsteady)
    show r.items.length ≤ h.limit
    omega
  · have hnone : count = 0 :=
      Decidable.not_not.1 (of_decide_eq_false (hrenews.symm.trans hsteady))
    exact Or.inr ⟨hbrings, hupdate.trans (if_pos hnone)⟩
  · cases hrenews.symm.trans hsteady

/-- Such an update adds to the sums what it brings. -/
theorem Carries.update (hcarries : h.Carries order) (hsteady : h.renews u = false) :
    (h.update u).Carries (order ++ u.brings) := by
  rcases update_of_steady hsteady with ⟨s, r, hbrings, hperm, -, hupdate⟩ | ⟨hbrings, hupdate⟩
  · rw [hupdate, hbrings]
    refine ⟨(hcarries.perm.append_right [s]).trans hperm.symm, ?_⟩
    show accumulate (h.sum, h.squares) s.value = _
    rw [sumsOf_concat, hcarries.sums]
  · rw [hupdate, hbrings, List.append_nil]
    exact hcarries

/-- What lands at the end is at the end. -/
theorem samples_update_of_last (hsteady : h.renews u = false) (hlast : h.landsLast u = true) :
    (h.update u).samples = h.samples ++ u.brings := by
  rcases update_of_steady hsteady with ⟨s, r, hbrings, -, hitems, hupdate⟩ | ⟨hbrings, hupdate⟩
  · rw [hupdate, hbrings]
    exact hitems hlast
  · rw [hupdate, hbrings, List.append_nil]

end Update

/-! ### Runs of updates -/

section Runs

variable {h : History} {us before since : List Update} {order : List Sample} {limit : Nat}

theorem updates_append (h : History) (us more : List Update) :
    h.updates (us ++ more) = (h.updates us).updates more := List.foldl_append

theorem updates_concat (h : History) (us : List Update) (u : Update) :
    h.updates (us ++ [u]) = (h.updates us).update u := List.foldl_concat ..

theorem wellKept_empty (limit : Nat) : WellKept (max limit 1) (empty limit) :=
  ⟨rfl, Nat.zero_le _, fun _ hs => absurd hs List.not_mem_nil⟩

theorem wellKept_updates (limit : Nat) (us : List Update) :
    WellKept (max limit 1) ((empty limit).updates us) := by
  induction us using List.reverseRecOn with
  | nil => exact wellKept_empty limit
  | append_singleton us u ih =>
      rw [updates_concat]
      exact ih.update u

theorem always_concat (p : History → Update → Bool) (h : History) (us : List Update) (u : Update) :
    h.always p (us ++ [u]) = (h.always p us && p (h.updates us) u) := by
  induction us generalizing h with
  | nil =>
      show (p h u && true) = (true && p h u)
      rw [Bool.and_true, Bool.true_and]
  | cons v us ih =>
      show (p h v && (h.update v).always p (us ++ [u])) = _
      rw [ih, ← Bool.and_assoc]
      rfl

/-- As long as the sums are not made anew, they follow the order of arrival. -/
theorem Carries.updates (hcarries : h.Carries order) (hsteady : h.steady us = true) :
    (h.updates us).Carries (order ++ arrived us) := by
  induction us generalizing h order with
  | nil => rwa [arrived, List.flatMap_nil, List.append_nil]
  | cons u us ih =>
      obtain ⟨hu, hus⟩ := Bool.and_eq_true_iff.1 hsteady
      rw [arrived, List.flatMap_cons, ← List.append_assoc]
      exact ih (hcarries.update (Bool.eq_false_of_not_eq_true' hu)) hus

/-- As long as everything lands at the end, this is the order of the history. -/
theorem samples_updates_of_last (hsteady : h.steady us = true)
    (hlast : h.always landsLast us = true) : (h.updates us).samples = h.samples ++ arrived us := by
  induction us generalizing h with
  | nil => rw [arrived, List.flatMap_nil, List.append_nil]; rfl
  | cons u us ih =>
      obtain ⟨hu, hus⟩ := Bool.and_eq_true_iff.1 hsteady
      obtain ⟨hulast, huslast⟩ := Bool.and_eq_true_iff.1 hlast
      have hone := samples_update_of_last (Bool.eq_false_of_not_eq_true' hu) hulast
      rw [arrived, List.flatMap_cons, ← List.append_assoc, ← hone]
      exact ih hus huslast

/-- Updates of a new history, cut where the sums were last made anew.  A new history counts as one
whose sums have just been made. -/
structure Renewed (limit : Nat) (us before since : List Update) : Prop where
  split : us = before ++ since
  anew : before = [] ∨
    ∃ earlier u, before = earlier ++ [u] ∧ ((empty limit).updates earlier).renews u = true
  steady : ((empty limit).updates before).steady since = true

theorem exists_renewed (limit : Nat) (us : List Update) :
    ∃ before since, Renewed limit us before since := by
  induction us using List.reverseRecOn with
  | nil => exact ⟨[], [], rfl, Or.inl rfl, rfl⟩
  | append_singleton us u ih =>
      by_cases hrenews : ((empty limit).updates us).renews u = true
      · exact ⟨us ++ [u], [], (List.append_nil _).symm, Or.inr ⟨us, u, rfl, hrenews⟩, rfl⟩
      · obtain ⟨before, since, rfl, hanew, hsteady⟩ := ih
        refine ⟨before, since ++ [u], List.append_assoc .., hanew, ?_⟩
        rw [updates_append] at hrenews
        rw [History.steady, always_concat, Bool.and_eq_true_iff]
        exact ⟨hsteady, by rw [Bool.eq_false_iff.2 hrenews]; rfl⟩

/-- Where the sums were last made anew they are those of the history. -/
theorem Renewed.summed (hrenewed : Renewed limit us before since) :
    ((empty limit).updates before).Summed := by
  rcases hrenewed.anew with rfl | ⟨earlier, u, rfl, hrenews⟩
  · exact summed_empty limit
  · rw [updates_concat]
    exact summed_update hrenews

theorem Renewed.carries (hrenewed : Renewed limit us before since) :
    ((empty limit).updates us).Carries
      (((empty limit).updates before).samples ++ arrived since) := by
  rw [hrenewed.split, updates_append]
  exact hrenewed.summed.carries.updates hrenewed.steady

/-- **The sums that a history carries.**  After any updates under any limit a history holds finite
samples and no more of them than the limit, or than one.  There is a place in the updates where its
sums were last made anew, and they are folded from left to right, starting at zero, over what was
held there in its order and then over what has been added since in the order of its arrival.  These
are the samples that are held, and if everything since has landed at the end, in the order in which
they are held. -/
theorem carried_sums (limit : Nat) (us : List Update) :
    ((empty limit).updates us).length ≤ max limit 1 ∧
      (∀ s ∈ ((empty limit).updates us).samples, s.value.isFinite = true) ∧
      (∃ before since, Renewed limit us before since) ∧
      ∀ before since, Renewed limit us before since →
        let h := (empty limit).updates us
        let order := ((empty limit).updates before).samples ++ arrived since
        order.Perm h.samples ∧
          h.sum = (order.map Sample.value).foldl (fun sum x => sum + x) 0.0 ∧
          h.squares = (order.map Sample.value).foldl (fun sum x => sum + x * x) 0.0 ∧
          (((empty limit).updates before).always landsLast since = true → order = h.samples) := by
  have hkept := wellKept_updates limit us
  refine ⟨hkept.bounded, hkept.finite, exists_renewed limit us, fun before since hrenewed => ?_⟩
  intro h order
  have hcarries : h.Carries order := hrenewed.carries
  have hsums := hcarries.sums.trans (sumsOf_eq order)
  refine ⟨hcarries.perm, congrArg Prod.fst hsums, congrArg Prod.snd hsums, fun hlast => ?_⟩
  show ((empty limit).updates before).samples ++ arrived since = ((empty limit).updates us).samples
  rw [hrenewed.split, updates_append, samples_updates_of_last hrenewed.steady hlast]

/-- An outlier is evicted, and the sums are made anew without it.  Of what comes after that, a
sample of the same time lands behind the other, one that is not finite is passed over, and one that
is added at the end stays there although it is older. -/
theorem carried_sums_outlier :
    let before : List Update := [.append ⟨10, 1e16⟩, .append ⟨20, 1.0⟩, .evict 1]
    let since : List Update := [.insert ⟨20, 2.0⟩, .append ⟨25, 0.0 / 0.0⟩, .append ⟨5, 3.0⟩]
    Renewed 3 (before ++ since) before since ∧
      ((empty 3).updates before).always landsLast since = true ∧
      ((empty 3).updates (before ++ since)).sum =
        (((empty 3).updates (before ++ since)).samples.map Sample.value).foldl
          (fun sum x => sum + x) 0.0 ∧
      ((empty 3).updates (before ++ since)).sum = 6.0 := by
  intro before since
  have hrenewed : Renewed 3 (before ++ since) before since :=
    ⟨rfl, Or.inr ⟨[.append ⟨10, 1e16⟩, .append ⟨20, 1.0⟩], .evict 1, rfl, by decide +kernel⟩,
      by decide +kernel⟩
  have hlast : ((empty 3).updates before).always landsLast since = true := by decide +kernel
  obtain ⟨-, hsum, -, hsame⟩ := (carried_sums 3 (before ++ since)).2.2.2 before since hrenewed
  exact ⟨hrenewed, hlast, (hsame hlast) ▸ hsum, by decide +kernel⟩

-- Samples that land in front of others are summed when they come: from the front to the back the
-- sum of these three would be one.
example :
    let h := (empty 3).updates [.insert ⟨30, 1.0⟩, .insert ⟨20, 1e16⟩, .insert ⟨10, -1e16⟩]
    h.sum = 0.0 ∧ (sumsOf h.samples).1 = 1.0 := by
  decide +kernel

end Runs

end History

end Telemetry
