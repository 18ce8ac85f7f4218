import Mathlib.Data.List.Sort
import Telemetry.Proofs.Library

/-!
# The last elements of a set

A list that holds, in ascending order, the last so many of the elements with a property
(`Latest`).  It is determined by the order, the number and the property (`Latest.unique`); it can
be kept up to date by putting a new element in its place and dropping what there is no room for
(`Latest.insert`), and by taking out what loses a property that no element loses before an
earlier one (`Latest.filter`).
-/

namespace Telemetry

variable {α : Type}

/-- The list holds, in ascending order, the last `limit` elements with a property. -/
structure Latest (before : α → α → Prop) (limit : Nat) (p : α → Prop) (kept : List α) : Prop where
  sorted : kept.Pairwise before
  sound : ∀ a ∈ kept, p a
  bounded : kept.length ≤ limit
  /-- What is left out stands before as many elements as there is room for. -/
  complete : ∀ a, p a → a ∉ kept → kept.length = limit ∧ ∀ k ∈ kept, before a k

namespace Latest

variable {before : α → α → Prop} {limit : Nat} {p q : α → Prop} {kept : List α}

theorem nil (h : ∀ a, ¬ p a) : Latest before limit p [] :=
  ⟨List.Pairwise.nil, fun _ ha => absurd ha List.not_mem_nil, Nat.zero_le _,
    fun a ha => absurd ha (h a)⟩

theorem congr (h : Latest before limit p kept) (hpq : ∀ a, p a ↔ q a) :
    Latest before limit q kept :=
  ⟨h.sorted, fun a ha => (hpq a).1 (h.sound a ha), h.bounded,
    fun a ha => h.complete a ((hpq a).2 ha)⟩

/-- The end of a sorted list, if what is not in the list stands before that end. -/
theorem of_drop {all : List α} (hsorted : all.Pairwise before) (hsound : ∀ a ∈ all, p a)
    (hrest : ∀ a, p a → a ∉ all →
      limit ≤ all.length ∧ ∀ k ∈ all.drop (all.length - limit), before a k) :
    Latest before limit p (all.drop (all.length - limit)) := by
  refine ⟨hsorted.sublist (List.drop_sublist _ _),
    fun a ha => hsound a (List.mem_of_mem_drop ha), ?_, fun a ha hnot => ?_⟩
  · rw [List.length_drop]
    omega
  · by_cases hmem : a ∈ all
    -- it is in front of the end, so the list is longer than the limit
    · rw [← List.take_append_drop (all.length - limit) all] at hmem hsorted
      rcases List.mem_append.1 hmem with htake | hdrop
      · have hlong : all.length - limit ≠ 0 := by
          intro hzero
          rw [hzero] at htake
          exact nomatch htake
        refine ⟨?_, fun k hk => (List.pairwise_append.1 hsorted).2.2 a htake k hk⟩
        rw [List.length_drop]
        omega
      · exact absurd hdrop hnot
    · obtain ⟨hlong, hbefore⟩ := hrest a ha hmem
      refine ⟨?_, hbefore⟩
      rw [List.length_drop]
      omega

/-- Elements that lose a property, none of them before an earlier one, are taken out. -/
theorem filter (h : Latest before limit p kept) (q : α → Bool)
    (hup : ∀ a k, p a → p k → q a = true → before a k → q k = true) :
    Latest before limit (fun a => p a ∧ q a = true) (kept.filter q) := by
  refine ⟨h.sorted.sublist List.filter_sublist, fun a ha => ?_,
    (List.length_filter_le q kept).trans h.bounded, fun a ha hnot => ?_⟩
  · obtain ⟨hmem, hq⟩ := List.mem_filter.1 ha
    exact ⟨h.sound a hmem, hq⟩
  · have hout : a ∉ kept := fun hmem => hnot (List.mem_filter.2 ⟨hmem, ha.2⟩)
    obtain ⟨hlength, hbefore⟩ := h.complete a ha.1 hout
    have hall : kept.filter q = kept :=
      List.filter_eq_self.2 fun k hk => hup a k ha.1 (h.sound k hk) ha.2 (hbefore k hk)
    rw [hall]
    exact ⟨hlength, hbefore⟩

/-- The elements under another name, which keeps the order. -/
theorem map {after : β → β → Prop} (h : Latest before limit p kept) (f : α → β)
    (hf : ∀ a b, p a → p b → before a b → after (f a) (f b)) :
    Latest after limit (fun y => ∃ a, p a ∧ f a = y) (kept.map f) := by
  refine ⟨?_, fun y hy => ?_, ?_, fun y hy hnot => ?_⟩
  · rw [List.pairwise_map]
    exact h.sorted.imp_of_mem fun ha hb => hf _ _ (h.sound _ ha) (h.sound _ hb)
  · obtain ⟨a, ha, rfl⟩ := List.mem_map.1 hy
    exact ⟨a, h.sound a ha, rfl⟩
  · rw [List.length_map]
    exact h.bounded
  · obtain ⟨a, ha, rfl⟩ := hy
    obtain ⟨hlength, hbefore⟩ := h.complete a ha fun hmem => hnot (List.mem_map_of_mem hmem)
    refine ⟨by rw [List.length_map, hlength], fun y hy => ?_⟩
    obtain ⟨k, hk, rfl⟩ := List.mem_map.1 hy
    exact hf a k ha (h.sound k hk) (hbefore k hk)

section Order

variable [IsStrictOrder α before]

/-- A new element is put in its place, and what there is no room for is dropped. -/
theorem insert {front back : List α} {a : α} (h : Latest before limit p (front ++ back))
    (hfront : ∀ k ∈ front, before k a) (hback : ∀ k ∈ back, before a k) :
    Latest before limit (fun b => p b ∨ b = a)
      ((front ++ a :: back).drop ((front ++ a :: back).length - limit)) := by
  have hsorted := pairwise_append_cons h.sorted hfront hback
  have hsound : ∀ k ∈ front ++ a :: back, p k ∨ k = a :=
    fun k hk => (mem_append_cons.1 hk).imp_left (h.sound k)
  refine of_drop hsorted hsound fun b hb hnot => ?_
  have hout : b ∉ front ++ back := fun hk => hnot (mem_append_cons.2 (Or.inl hk))
  have hpb : p b := hb.resolve_right fun hba => hnot (mem_append_cons.2 (Or.inr hba))
  obtain ⟨hlength, hbefore⟩ := h.complete b hpb hout
  rw [List.length_append] at hlength
  have hone : (front ++ a :: back).length - limit = 1 := by
    rw [List.length_append, List.length_cons]
    omega
  rw [hone]
  refine ⟨by rw [List.length_append, List.length_cons]; omega, fun k hk => ?_⟩
  -- the first element is the one dropped; if that is not `a`, it stands between `b` and `a`
  cases front with
  | nil => exact hbefore k hk
  | cons first front =>
      rcases mem_append_cons.1 (List.mem_of_mem_drop hk) with hk | rfl
      · exact hbefore k hk
      · have hfirst : first ∈ (first :: front) ++ back :=
          List.mem_append_left back List.mem_cons_self
        exact Trans.trans (hbefore first hfirst) (hfront first List.mem_cons_self)

/-- With room for one there is the last of all elements, at the end. -/
theorem exists_concat (h : Latest before limit p kept) (hlimit : 1 ≤ limit) {z : α} (hz : p z)
    (hmax : ∀ a, p a → a = z ∨ before a z) : ∃ front, kept = front ++ [z] := by
  have hmem : z ∈ kept := by
    by_contra hnot
    obtain ⟨hlength, hbefore⟩ := h.complete z hz hnot
    obtain ⟨k, hk⟩ := List.exists_mem_of_length_pos (hlimit.trans_eq hlength.symm)
    rcases hmax k (h.sound k hk) with rfl | hlt
    · exact hnot hk
    · exact irrefl k (Trans.trans hlt (hbefore k hk))
  -- nothing can stand behind it
  obtain ⟨front, back, rfl⟩ := List.append_of_mem hmem
  cases back with
  | nil => exact ⟨front, rfl⟩
  | cons k back =>
      have hlt : before z k :=
        (List.pairwise_cons.1 (List.pairwise_append.1 h.sorted).2.1).1 k List.mem_cons_self
      have hk : p k := h.sound k (by simp)
      rcases hmax k hk with rfl | hgt
      · exact absurd hlt (irrefl k)
      · exact absurd (Trans.trans hlt hgt) (irrefl z)

/-- The order, the number and the property determine the list. -/
theorem unique {other : List α} (h : Latest before limit p kept)
    (hother : Latest before limit p other) : kept = other := by
  have hsub : ∀ {xs ys : List α}, Latest before limit p xs → Latest before limit p ys →
      xs ⊆ ys := by
    intro xs ys hx hy a ha
    by_contra hnot
    obtain ⟨hlength, hbefore⟩ := hy.complete a (hx.sound a ha) hnot
    -- then `xs` would hold all of `ys` and `a` besides
    have hsubset : a :: ys ⊆ xs := by
      intro k hk
      rcases List.mem_cons.1 hk with rfl | hk
      · exact ha
      · by_contra hout
        exact irrefl a (Trans.trans (hbefore k hk)
          ((hx.complete k (hy.sound k hk) hout).2 a ha))
    have hnodup : (a :: ys).Nodup := List.nodup_cons.2 ⟨hnot, hy.sorted.nodup⟩
    have hle := (List.subperm_of_subset hnodup hsubset).length_le
    have hbound := hx.bounded
    rw [List.length_cons] at hle
    omega
  exact List.Pairwise.eq_of_mem_iff h.sorted hother.sorted fun a =>
    ⟨fun ha => hsub h hother ha, fun ha => hsub hother h ha⟩

/-- Among all elements in ascending order, the last ones. -/
theorem eq_drop (h : Latest before limit p kept) {all : List α} (hsorted : all.Pairwise before)
    (hall : ∀ a, a ∈ all ↔ p a) : kept = all.drop (all.length - limit) :=
  h.unique (of_drop hsorted (fun a => (hall a).1) fun a ha hnot => absurd ((hall a).2 ha) hnot)

end Order

end Latest

end Telemetry
