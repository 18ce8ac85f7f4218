import Mathlib.Data.List.DropRight
import Mathlib.Data.List.Forall2
import Mathlib.Tactic.Tauto

/-!
# Steps that may fail, and lists

What the theory uses of the standard types and the library does not have: the ways in which a step
that may fail, or a list of such steps, comes to its result; what satisfies a condition at the front
of a list; and lists read by the names that stand beside them.  Nothing here mentions an expression.
-/

namespace Telemetry

variable {α β δ ε : Type}

/-! ### Steps that may fail -/

theorem bind_eq_ok {x : Except ε α} {f : α → Except ε β} {b : β} (h : x >>= f = .ok b) :
    ∃ a, x = .ok a ∧ f a = .ok b := by
  cases x with
  | error fault => exact nomatch h
  | ok a => exact ⟨a, rfl, h⟩

theorem bind_eq_error {x : Except ε α} {f : α → Except ε β} {fault : ε}
    (h : x >>= f = .error fault) : x = .error fault ∨ ∃ a, x = .ok a ∧ f a = .error fault := by
  cases x with
  | error other => exact Or.inl (congrArg Except.error (Except.error.inj h))
  | ok a => exact Or.inr ⟨a, rfl, h⟩

theorem map_eq_ok {x : Except ε α} {f : α → β} {b : β} (h : x.map f = .ok b) :
    ∃ a, x = .ok a ∧ f a = b := by
  cases x with
  | error fault => exact nomatch h
  | ok a => exact ⟨a, rfl, Except.ok.inj h⟩

theorem map_eq_error {x : Except ε α} {f : α → β} {fault : ε} (h : x.map f = .error fault) :
    x = .error fault := by
  cases x with
  | error other => exact congrArg Except.error (Except.error.inj h)
  | ok a => exact nomatch h

theorem mapError_eq_ok {x : Except ε α} {f : ε → δ} {a : α} (h : x.mapError f = .ok a) :
    x = .ok a := by
  cases x with
  | error fault => exact nomatch h
  | ok b => exact congrArg Except.ok (Except.ok.inj h)

theorem mapError_eq_error {x : Except ε α} {f : ε → δ} {fault : δ}
    (h : x.mapError f = .error fault) : ∃ cause, x = .error cause ∧ f cause = fault := by
  cases x with
  | error cause => exact ⟨cause, rfl, Except.error.inj h⟩
  | ok a => exact nomatch h

theorem elim_eq_ok_iff {o : Option α} {missing : ε} {a : α} :
    o.elim (.error missing) Except.ok = .ok a ↔ o = some a := by
  cases o <;> simp

theorem elim_eq_error {o : Option α} {missing fault : ε}
    (h : o.elim (.error missing) Except.ok = .error fault) : missing = fault := by
  cases o with
  | none => exact Except.error.inj h
  | some a => exact nomatch h

theorem toOption_map (x : Except ε α) (f : α → β) : (x.map f).toOption = x.toOption.map f := by
  cases x <;> rfl

theorem eq_ok_of_toOption {x : Except ε α} {a : α} (h : x.toOption = some a) :
    x = .ok a := by
  cases x with
  | ok b => exact congrArg Except.ok (Option.some.inj h)
  | error fault => cases h

/-! ### Lists related item by item -/

/-- What is related item by item is related at every position. -/
theorem related_at {R : α → β → Prop} {as : List α} {bs : List β} (h : List.Forall₂ R as bs)
    {i : Nat} {a : α} (ha : as[i]? = some a) : ∃ b, bs[i]? = some b ∧ R a b := by
  induction h generalizing i with
  | nil => cases ha
  | cons hhead _ ih =>
      cases i with
      | zero =>
          cases ha
          exact ⟨_, rfl, hhead⟩
      | succ i => exact ih ha

/-- What is related to an item of one list is an item of the other. -/
theorem exists_entry_of_mem {R : α → β → Prop} {as : List α} {bs : List β}
    (h : List.Forall₂ R as bs) {b : β} (hb : b ∈ bs) : ∃ a ∈ as, R a b := by
  obtain ⟨i, hi⟩ := List.mem_iff_getElem?.1 hb
  obtain ⟨a, ha, hab⟩ := related_at h.flip hi
  exact ⟨a, List.mem_of_getElem? ha, hab⟩

/-! ### Lists of steps -/

/-- A list of steps succeeds with what its steps succeed with, item by item. -/
theorem mapM_eq_ok_iff {f : α → Except ε β} {xs : List α} {ys : List β} :
    xs.mapM f = .ok ys ↔ List.Forall₂ (fun x y => f x = .ok y) xs ys := by
  constructor
  · intro h
    induction xs generalizing ys with
    | nil =>
        cases h
        exact .nil
    | cons x xs ih =>
        rw [List.mapM_cons] at h
        obtain ⟨y, hy, h⟩ := bind_eq_ok h
        obtain ⟨rest, hrest, h⟩ := bind_eq_ok h
        cases h
        exact .cons hy (ih hrest)
  · intro h
    induction h with
    | nil => rfl
    | cons hhead _ ih =>
        rw [List.mapM_cons, hhead, ih]
        rfl

/-- What a list of steps succeeds with comes from its items. -/
theorem mem_of_mapM_ok {f : α → Except ε β} {xs : List α} {ys : List β}
    (h : xs.mapM f = .ok ys) {y : β} (hy : y ∈ ys) : ∃ x ∈ xs, f x = .ok y :=
  exists_entry_of_mem (mapM_eq_ok_iff.1 h) hy

/-- Where a list of steps succeeds, every step does. -/
theorem ok_of_mapM_ok {f : α → Except ε β} {xs : List α} {ys : List β}
    (h : xs.mapM f = .ok ys) {x : α} (hx : x ∈ xs) : ∃ y, f x = .ok y := by
  obtain ⟨y, -, hy⟩ := exists_entry_of_mem (mapM_eq_ok_iff.1 h).flip hx
  exact ⟨y, hy⟩

/-- A list of steps that give what a function gives. -/
theorem mapM_eq_pure {m : Type → Type} [Monad m] [LawfulMonad m] {f : α → m β} {g : α → β}
    {xs : List α} (h : ∀ x ∈ xs, f x = pure (g x)) : xs.mapM f = pure (xs.map g) := by
  induction xs with
  | nil => rw [List.mapM_nil, List.map_nil]
  | cons x xs ih =>
      rw [List.mapM_cons, h x List.mem_cons_self, ih fun y hy => h y (List.mem_cons_of_mem x hy),
        pure_bind, pure_bind, List.map_cons]

/-- A list of steps one of which has no result has none. -/
theorem mapM_eq_none {f : α → Option β} {xs : List α} {x : α} (hx : x ∈ xs) (h : f x = none) :
    xs.mapM f = none := by
  induction xs with
  | nil => exact nomatch hx
  | cons y ys ih =>
      rw [List.mapM_cons]
      rcases List.mem_cons.1 hx with rfl | hx
      · rw [h]
        rfl
      · rw [ih hx]
        cases f y <;> rfl

/-- Where a list of steps fails, one of its steps does. -/
theorem error_of_mapM_error {f : α → Except ε β} {xs : List α} {fault : ε}
    (h : xs.mapM f = .error fault) : ∃ x ∈ xs, f x = .error fault := by
  induction xs with
  | nil => cases h
  | cons x xs ih =>
      rw [List.mapM_cons] at h
      rcases bind_eq_error h with hx | ⟨y, -, h⟩
      · exact ⟨x, List.mem_cons_self, hx⟩
      · rcases bind_eq_error h with hrest | ⟨ys, -, h⟩
        · obtain ⟨z, hz, hfault⟩ := ih hrest
          exact ⟨z, List.mem_cons_of_mem x hz, hfault⟩
        · cases h

/-- Where at most one item fails, items in another order give the same results in another order,
or fail in the same way. -/
theorem mapM_perm {f : α → Except ε β} {xs ys : List α} (h : xs.Perm ys)
    (hone : xs.countP (fun x => !(f x).isOk) ≤ 1) :
    (∃ rs ss, xs.mapM f = .ok rs ∧ ys.mapM f = .ok ss ∧ rs.Perm ss) ∨
      ∃ fault, xs.mapM f = .error fault ∧ ys.mapM f = .error fault := by
  induction h with
  | nil => exact Or.inl ⟨[], [], rfl, rfl, .nil⟩
  | @cons x xs ys h ih =>
      rw [List.mapM_cons, List.mapM_cons]
      cases hx : f x with
      | error fault => exact Or.inr ⟨fault, rfl, rfl⟩
      | ok r =>
          rw [List.countP_cons] at hone
          rcases ih (Nat.le_trans (Nat.le_add_right _ _) hone) with
            ⟨rs, ss, hrs, hss, hperm⟩ | ⟨fault, hrs, hss⟩
          · rw [hrs, hss]
            exact Or.inl ⟨r :: rs, r :: ss, rfl, rfl, hperm.cons r⟩
          · rw [hrs, hss]
            exact Or.inr ⟨fault, rfl, rfl⟩
  | swap x y xs =>
      simp only [List.mapM_cons]
      cases hx : f x with
      | error fault =>
          cases hy : f y with
          | error fault' =>
              rw [List.countP_cons, List.countP_cons, hx, hy] at hone
              simp [Except.isOk, Except.toBool] at hone
          | ok s => exact Or.inr ⟨fault, rfl, rfl⟩
      | ok r =>
          cases hy : f y with
          | error fault => exact Or.inr ⟨fault, rfl, rfl⟩
          | ok s =>
              cases hrest : xs.mapM f with
              | error fault => exact Or.inr ⟨fault, rfl, rfl⟩
              | ok rs => exact Or.inl ⟨s :: r :: rs, r :: s :: rs, rfl, rfl, .swap r s rs⟩
  | @trans xs ys zs hxy hyz ih ih' =>
      rcases ih hone with ⟨rs, ss, hrs, hss, hperm⟩ | ⟨fault, hrs, hss⟩
      · rcases ih' (hxy.countP_eq _ ▸ hone) with ⟨ss', us, hss', hus, hperm'⟩ | ⟨fault, hss', -⟩
        · cases hss.symm.trans hss'
          exact Or.inl ⟨rs, us, hrs, hus, hperm.trans hperm'⟩
        · cases hss.symm.trans hss'
      · rcases ih' (hxy.countP_eq _ ▸ hone) with ⟨ss', us, hss', -, -⟩ | ⟨fault', hss', hus⟩
        · cases hss.symm.trans hss'
        · cases hss.symm.trans hss'
          exact Or.inr ⟨fault, hrs, hus⟩

/-- What every step of a fold keeps, the fold keeps where it succeeds. -/
theorem foldlM_keeps {P : α → Prop} {f : α → β → Except ε α}
    (hstep : ∀ a b a', P a → f a b = .ok a' → P a') {bs : List β} {a a' : α} (ha : P a)
    (h : bs.foldlM f a = .ok a') : P a' := by
  induction bs generalizing a with
  | nil =>
      cases h
      exact ha
  | cons b bs ih =>
      rw [List.foldlM_cons] at h
      obtain ⟨next, hnext, h⟩ := bind_eq_ok h
      exact ih (hstep a b next ha hnext) h

/-! ### Fronts and ends -/

/-- The front is what satisfies a condition up to the first item that does not. -/
theorem takeWhile_append_of_stop {p : α → Bool} {ds rest : List α} (hds : ∀ c ∈ ds, p c = true)
    (hrest : ∀ c ∈ rest.head?, p c = false) : (ds ++ rest).takeWhile p = ds := by
  rw [List.takeWhile_append_of_pos hds]
  cases rest with
  | nil => rw [List.takeWhile_nil, List.append_nil]
  | cons c rest =>
      rw [List.takeWhile_cons_of_neg (ne_true_of_eq_false (hrest c rfl)), List.append_nil]

theorem dropWhile_append_of_stop {p : α → Bool} {ds rest : List α} (hds : ∀ c ∈ ds, p c = true)
    (hrest : ∀ c ∈ rest.head?, p c = false) : (ds ++ rest).dropWhile p = rest := by
  rw [List.dropWhile_append_of_pos hds]
  cases rest with
  | nil => rfl
  | cons c rest => exact List.dropWhile_cons_of_neg (ne_true_of_eq_false (hrest c rfl))

/-- The front that satisfies a weaker condition is no shorter. -/
theorem length_takeWhile_le {p q : α → Bool} (h : ∀ x, p x = true → q x = true)
    (xs : List α) : (xs.takeWhile p).length ≤ (xs.takeWhile q).length := by
  induction xs with
  | nil => exact Nat.le_refl _
  | cons x xs ih =>
      by_cases hp : p x = true
      · rw [List.takeWhile_cons_of_pos hp, List.takeWhile_cons_of_pos (h x hp)]
        exact Nat.succ_le_succ ih
      · rw [List.takeWhile_cons_of_neg hp]
        exact Nat.zero_le _

/-- To drop the front that satisfies a condition is to keep what does not, if nothing behind that
front satisfies it. -/
theorem drop_takeWhile_eq_filter {p : α → Bool} {xs : List α}
    (h : xs.Pairwise fun x y => p y = true → p x = true) :
    xs.drop (xs.takeWhile p).length = xs.filter fun x => !p x := by
  induction xs with
  | nil => rfl
  | cons x xs ih =>
      obtain ⟨hx, hxs⟩ := List.pairwise_cons.1 h
      by_cases hp : p x = true
      · rw [List.takeWhile_cons_of_pos hp, List.length_cons, List.drop_succ_cons, ih hxs,
          List.filter_cons_of_neg (by simp [hp])]
      · have hall : ∀ y ∈ x :: xs, (!p y) = true := by
          intro y hy
          rcases List.mem_cons.1 hy with rfl | hy
          · simp [hp]
          · have : p y ≠ true := fun hpy => hp (hx y hy hpy)
            simp [this]
        rw [List.takeWhile_cons_of_neg hp, List.length_nil, List.drop_zero,
          List.filter_eq_self.2 hall]

theorem length_rtake (xs : List α) (n : Nat) : (xs.rtake n).length = min n xs.length := by
  rw [List.rtake, List.length_drop]
  omega

theorem rtake_suffix (xs : List α) (n : Nat) : xs.rtake n <:+ xs := List.drop_suffix _ xs

theorem rtake_of_length_le {xs : List α} {n : Nat} (h : xs.length ≤ n) : xs.rtake n = xs := by
  have hzero : xs.length - n = 0 := by omega
  rw [List.rtake, hzero, List.drop_zero]

/-- The end of an end. -/
theorem rtake_rtake (xs : List α) (m n : Nat) : (xs.rtake m).rtake n = xs.rtake (min n m) := by
  have hlength := length_rtake xs m
  show (xs.drop (xs.length - m)).drop ((xs.rtake m).length - n) = _
  rw [List.drop_drop, hlength, List.rtake]
  congr 1
  omega

/-- What is in front of the end of a list is in front of the end of any longer one. -/
theorem rtake_rtake_append (xs ys : List α) (n : Nat) :
    (xs.rtake n ++ ys).rtake n = (xs ++ ys).rtake n := by
  have hlength := length_rtake xs n
  show (xs.rtake n ++ ys).drop ((xs.rtake n ++ ys).length - n) =
    (xs ++ ys).drop ((xs ++ ys).length - n)
  rw [List.length_append, List.length_append, hlength]
  by_cases hshort : xs.length ≤ n
  · have hsame : min n xs.length = xs.length := by omega
    rw [rtake_of_length_le hshort, hsame]
  · -- the front of `xs` is dropped at once or after what it has in front of its end
    have hfront : xs.length + ys.length - n = (xs.length - n) + ys.length := by omega
    have hback : min n xs.length + ys.length - n = ys.length := by omega
    have hsplit : (xs ++ ys).drop (xs.length - n) = xs.rtake n ++ ys :=
      List.drop_append_of_le_length (by omega)
    rw [hfront, hback, ← List.drop_drop, hsplit]

/-! ### Parts and separators -/

/-- What is in no part and not in the separator is not in the parts between separators. -/
theorem notMem_intercalate {x : α} {sep : List α} {parts : List (List α)} (hsep : x ∉ sep)
    (hparts : ∀ part ∈ parts, x ∉ part) : x ∉ sep.intercalate parts := by
  induction parts with
  | nil => exact List.not_mem_nil
  | cons part parts ih =>
      have hpart := hparts part List.mem_cons_self
      have hrest := ih fun other hother => hparts other (List.mem_cons_of_mem part hother)
      cases parts with
      | nil => simpa [List.intercalate] using hpart
      | cons next parts =>
          rw [List.intercalate_cons_cons]
          simp only [List.mem_append, not_or]
          exact ⟨⟨hpart, hsep⟩, hrest⟩

/-- A list is cut once at each separator. -/
theorem length_splitOn [BEq α] [LawfulBEq α] (xs : List α) (x : α) :
    (xs.splitOn x).length = xs.count x + 1 := by
  induction xs with
  | nil => rw [List.splitOn_nil]; rfl
  | cons y xs ih =>
      rw [List.splitOn_cons_eq_if_modifyHead, List.count_cons]
      split
      · rw [List.length_cons, ih]
      · rw [List.length_modifyHead, ih]

/-! ### An element in its place -/

/-- An element in its place in a sorted list. -/
theorem pairwise_append_cons {r : α → α → Prop} {front back : List α} {a : α}
    (h : (front ++ back).Pairwise r) (hfront : ∀ k ∈ front, r k a) (hback : ∀ k ∈ back, r a k) :
    (front ++ a :: back).Pairwise r := by
  obtain ⟨hf, hb, hcross⟩ := List.pairwise_append.1 h
  refine List.pairwise_append.2 ⟨hf, List.pairwise_cons.2 ⟨hback, hb⟩, fun x hx y hy => ?_⟩
  rcases List.mem_cons.1 hy with rfl | hy
  · exact hfront x hx
  · exact hcross x hx y hy

theorem mem_append_cons {front back : List α} {a k : α} :
    k ∈ front ++ a :: back ↔ k ∈ front ++ back ∨ k = a := by
  simp only [List.mem_append, List.mem_cons]
  tauto

/-! ### Lists read by names -/

/-- At the first position of an item is the item. -/
theorem getElem?_of_findIdx? [BEq α] [LawfulBEq α] {x : α} {xs : List α} {i : Nat}
    (h : xs.findIdx? (· == x) = some i) : xs[i]? = some x := by
  obtain ⟨hi, heq, -⟩ := List.findIdx?_eq_some_iff_getElem.1 h
  rw [List.getElem?_eq_getElem hi, beq_iff_eq.1 heq]

/-- What stands under a name does not depend on the order, if no name stands twice. -/
theorem lookup_perm [BEq α] [LawfulBEq α] {xs ys : List (α × β)} (h : xs.Perm ys)
    (hkeys : (xs.map Prod.fst).Nodup) (key : α) : xs.lookup key = ys.lookup key := by
  induction h with
  | nil => rfl
  | @cons x xs ys h ih =>
      rw [List.map_cons, List.nodup_cons] at hkeys
      rw [List.lookup_cons, List.lookup_cons, ih hkeys.2]
  | swap x y xs =>
      obtain ⟨k, a⟩ := x
      obtain ⟨l, b⟩ := y
      simp only [List.map_cons, List.nodup_cons, List.mem_cons, not_or] at hkeys
      simp only [List.lookup_cons]
      cases hx : key == k with
      | false => rfl
      | true =>
          cases hy : key == l with
          | false => rfl
          | true => exact absurd ((beq_iff_eq.1 hy).symm.trans (beq_iff_eq.1 hx)) hkeys.1.1
  | @trans xs ys zs hxy hyz ih ih' =>
      exact (ih hkeys).trans (ih' ((hxy.map Prod.fst).nodup_iff.1 hkeys))

/-- What stands under a name in a first row is what stands in its place in a second row. -/
theorem lookup_zip [BEq α] [LawfulBEq α] {names : List α} (hnames : names.Nodup) {i : Nat}
    {name : α} (hname : names[i]? = some name) (xs : List β) :
    (names.zip xs).lookup name = xs[i]? := by
  induction names generalizing i xs with
  | nil => exact nomatch hname
  | cons first names ih =>
      obtain ⟨hfirst, hrest⟩ := List.nodup_cons.1 hnames
      cases xs with
      | nil => rfl
      | cons x xs =>
          rw [List.zip_cons_cons, List.lookup_cons]
          cases i with
          | zero =>
              cases hname
              rw [beq_self_eq_true]
              rfl
          | succ i =>
              have hname' : names[i]? = some name := hname
              have hne : (name == first) = false :=
                beq_eq_false_iff_ne.2 fun h => hfirst (h ▸ List.mem_of_getElem? hname')
              rw [hne]
              exact ih hrest hname' xs

end Telemetry
