/-!
# Rings

A ring keeps a sequence in a circle of slots that grows by doubling. Readers see
the sequence alone. Where it begins in the circle matters to one thing, the search
for a place: the sequence may run over the last slot, and the search then bisects
the part behind that seam or the part in front of it. In a sequence whose first
items satisfy the condition and whose others do not, the place found is the one
between them, wherever the seam is.
-/

namespace Telemetry

/-- A sequence in a circle of slots. -/
structure Ring (α : Type) where
  items : List α
  /-- The slot of the first item. -/
  start : Nat
  slots : Nat

namespace Ring

variable {α : Type}

/-- A ring without slots. -/
def empty : Ring α := ⟨[], 0, 0⟩

/-- The number of items in front of the seam. -/
def seam (r : Ring α) : Nat := min r.items.length (r.slots - r.start)

/-- The slot of the first item after growth from full: of the parts around the seam
the shorter one moves, and of two equal ones the front. -/
def startAfterGrowth (r : Ring α) (slots : Nat) : Nat :=
  let front := r.slots - r.start
  let back := r.items.length - front
  if back = 0 || back < front then r.start else slots - front

/-- The ring with room for one item more. -/
def grow (r : Ring α) : Ring α :=
  if r.items.length < r.slots then r
  else
    let slots := max 4 (2 * r.slots)
    { r with start := r.startAfterGrowth slots, slots := slots }

/-- The ring with an item at the end. -/
def push (r : Ring α) (x : α) : Ring α :=
  let r := r.grow
  { r with items := r.items ++ [x] }

/-- The ring with an item in front of the one at `index`. In the first half it is
the items in front of it that give way. -/
def insertAt (r : Ring α) (index : Nat) (x : α) : Ring α :=
  let r := r.grow
  { r with
    items := r.items.take index ++ x :: r.items.drop index
    start :=
      if r.items.length - index < index then r.start
      else if r.start = 0 then r.slots - 1
      else r.start - 1 }

/-- The ring without its first items. -/
def drop (r : Ring α) (count : Nat) : Ring α :=
  if count < r.items.length then
    { r with items := r.items.drop count, start := (r.start + count) % r.slots }
  else { r with items := [], start := 0 }

/-- The ring without items. -/
def clear (r : Ring α) : Ring α := { r with items := [], start := 0 }

/-- The place found by halving: a middle item that satisfies the condition sends the
search to itself and what follows, any other to what is before it. -/
def bisect (p : α → Bool) : List α → Nat
  | [] => 0
  | [x] => if p x then 1 else 0
  | x :: y :: rest =>
    let xs := x :: y :: rest
    let half := xs.length / 2
    if (xs[half]?).any p then half + bisect p (xs.drop half)
    else bisect p (xs.take (xs.length - half))
termination_by xs => xs.length
decreasing_by
  · simp only [List.length_drop, List.length_cons]
    omega
  · simp only [List.length_take, List.length_cons]
    omega

/-- The place in front of the first item that fails the condition. -/
def place (p : α → Bool) (r : Ring α) : Nat :=
  let back := r.items.drop r.seam
  if back.head?.any p then r.seam + bisect p back else bisect p (r.items.take r.seam)

/-- A ring without slots holds nothing. -/
@[simp] theorem items_empty : (empty : Ring α).items = [] := rfl

/-- Growth changes no item. -/
@[simp] theorem items_grow (r : Ring α) : r.grow.items = r.items := by
  unfold grow
  split <;> rfl

/-- Pushing adds at the end. -/
@[simp] theorem items_push (r : Ring α) (x : α) : (r.push x).items = r.items ++ [x] := by
  simp only [push, items_grow]

/-- Insertion splits the sequence at the index. -/
@[simp] theorem items_insertAt (r : Ring α) (index : Nat) (x : α) :
    (r.insertAt index x).items = r.items.take index ++ x :: r.items.drop index := by
  simp only [insertAt, items_grow]

/-- Dropping takes from the front. -/
@[simp] theorem items_drop (r : Ring α) (count : Nat) :
    (r.drop count).items = r.items.drop count := by
  unfold drop
  split
  case isTrue => rfl
  case isFalse h => exact (List.drop_of_length_le (Nat.le_of_not_lt h)).symm

/-- Clearing leaves nothing. -/
@[simp] theorem items_clear (r : Ring α) : r.clear.items = [] := rfl

/-- Halving finds the border between the items that satisfy the condition and
those that do not. -/
theorem bisect_append (p : α → Bool) {front back : List α} (hf : ∀ x ∈ front, p x = true)
    (hb : ∀ x ∈ back, p x = false) : bisect p (front ++ back) = front.length := by
  suffices key : ∀ (xs : List α) (front back : List α), xs = front ++ back →
      (∀ x ∈ front, p x = true) → (∀ x ∈ back, p x = false) → bisect p xs = front.length from
    key _ _ _ rfl hf hb
  intro xs
  fun_induction bisect p xs with
  | case1 =>
    intro front back h _ _
    rw [(List.append_eq_nil_iff.1 h.symm).1, List.length_nil]
  | case2 x hx =>
    intro front back h _ hb
    match front, h with
    | [], h =>
      have : p x = false := hb x (by rw [← List.nil_append back, ← h]; exact List.mem_singleton.2 rfl)
      exact absurd (this.symm.trans hx) nofun
    | y :: front, h =>
      have := congrArg List.length h
      simp only [List.length_cons, List.length_nil, List.length_append] at this ⊢
      omega
  | case3 x hx =>
    intro front back h hf _
    match front, h with
    | [], _ => rfl
    | y :: front, h => exact absurd (hf x (by rw [(List.cons.inj h).1]; exact List.mem_cons_self)) hx
  | case4 x y rest xs half hp ih =>
    intro front back h hf hb
    have long : half < xs.length := by
      simp only [half, xs, List.length_cons]
      omega
    have le : half ≤ front.length := by
      refine Nat.le_of_not_lt fun lt => ?_
      rw [List.getElem?_eq_getElem long, Option.any_some] at hp
      refine absurd hp ?_
      rw [hb _ ?_]
      · exact nofun
      · have eq : xs = front ++ back := h
        simp only [eq, List.getElem_append_right (Nat.le_of_lt lt), List.getElem_mem]
    have split : xs.drop half = front.drop half ++ back := by
      rw [show xs = front ++ back from h, List.drop_append_of_le_length le]
    rw [ih (front.drop half) back split (fun x hx => hf x (List.mem_of_mem_drop hx)) hb,
      List.length_drop]
    omega
  | case5 x y rest xs half hp ih =>
    intro front back h hf hb
    have long : half < xs.length := by
      simp only [half, xs, List.length_cons]
      omega
    have le : front.length ≤ half := by
      refine Nat.le_of_not_lt fun lt => hp ?_
      rw [List.getElem?_eq_getElem long, Option.any_some]
      refine hf _ ?_
      have eq : xs = front ++ back := h
      simp only [eq, List.getElem_append_left lt, List.getElem_mem]
    have fits : front.length ≤ xs.length - half := by
      simp only [half, xs, List.length_cons] at le ⊢
      omega
    have split : xs.take (xs.length - half)
        = front ++ back.take (xs.length - half - front.length) := by
      conv => lhs; rw [show xs.take (xs.length - half) = (front ++ back).take (xs.length - half) from
        congrArg (List.take (xs.length - half)) h]
      rw [List.take_append, List.take_of_length_le fits]
    exact ih front _ split hf fun x hx => hb x (List.mem_of_mem_take hx)

/-- In a sequence that the condition divides, the place is where it does so. -/
theorem place_eq (p : α → Bool) {r : Ring α} {front back : List α} (h : r.items = front ++ back)
    (hf : ∀ x ∈ front, p x = true) (hb : ∀ x ∈ back, p x = false) :
    r.place p = front.length := by
  have le : r.seam ≤ r.items.length := Nat.min_le_left ..
  unfold place
  simp only [h]
  by_cases hs : r.seam < front.length
  · have split : (front ++ back).drop r.seam = front.drop r.seam ++ back :=
      List.drop_append_of_le_length (Nat.le_of_lt hs)
    have first : ((front ++ back).drop r.seam).head?.any p = true := by
      rw [List.head?_drop, List.getElem?_append_left hs, List.getElem?_eq_getElem hs,
        Option.any_some]
      exact hf _ (List.getElem_mem hs)
    rw [if_pos first, split, bisect_append p (fun x hx => hf x (List.mem_of_mem_drop hx)) hb,
      List.length_drop]
    omega
  · have past : front.length ≤ r.seam := Nat.le_of_not_lt hs
    have first : ¬ ((front ++ back).drop r.seam).head?.any p = true := by
      rw [List.head?_drop, List.getElem?_append_right past]
      intro any
      obtain ⟨x, hx, px⟩ := (Option.any_eq_true ..).1 any
      exact absurd (px.symm.trans (hb x (List.mem_of_getElem? hx))) nofun
    rw [if_neg first, List.take_append, List.take_of_length_le past]
    exact bisect_append p hf fun x hx => hb x (List.mem_of_mem_take hx)

end Ring

end Telemetry
