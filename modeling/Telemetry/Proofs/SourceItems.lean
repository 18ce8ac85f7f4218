import Telemetry.Proofs.LiteralForms
import Telemetry.Source

/-!
# Items and the text they are written in

A source text is read as the items that it was written from.  Items have three forms (`Item`), and
each of them ends by itself unless what follows could go on with it (`Ends`): a quote behind a text,
and anything but a blank behind a word.

* `items_eq_ok_iff`: the reader finds exactly the items that a text is laid out with (`Laid`), so
  that it neither loses, splits nor merges any of them.
* `items_joined`: hence items that are joined with blanks are read back, and what is read makes up
  the text with nothing but blanks around it.
-/

namespace Telemetry.Source

open Literal

/-! ### Forms and layouts -/

/-- The forms of items: texts between quotes, dates between hash signs, and words. -/
inductive Item : List Char → Prop
  | text (s : List Char) : Item ('"' :: (doubled s ++ ['"']))
  | date {s : List Char} (h : '#' ∉ s) : Item ('#' :: (s ++ ['#']))
  | word {c : Char} {cs : List Char} (hquote : c ≠ '"') (hhash : c ≠ '#')
      (hblank : ∀ d ∈ c :: cs, Text.isBlank d = false) : Item (c :: cs)

/-- What follows does not go on with the item that starts with `c`. -/
def Ends (c : Char) (rest : List Char) : Prop :=
  if c = '"' then rest.head? ≠ some '"'
  else if c = '#' then True
  else ∀ d ∈ rest.head?, Text.isBlank d = true

/-- A text is laid out with items: blanks and items follow each other in it, and every item ends
before what follows it. -/
inductive Laid : List Char → List (List Char) → Prop
  | done : Laid [] []
  | blank {c : Char} {cs : List Char} {xs : List (List Char)} (hblank : Text.isBlank c = true)
      (h : Laid cs xs) : Laid (c :: cs) xs
  | item {c : Char} {tail rest : List Char} {xs : List (List Char)} (hitem : Item (c :: tail))
      (hends : Ends c rest) (h : Laid rest xs) : Laid (c :: (tail ++ rest)) ((c :: tail) :: xs)

variable {c : Char} {cs tail rest : List Char} {xs : List (List Char)}

theorem Item.exists_cons {item : List Char} (h : Item item) : ∃ c tail, item = c :: tail := by
  cases h <;> exact ⟨_, _, rfl⟩

/-- No item goes on behind a blank, or at the end of the text. -/
theorem ends_of_blank (h : ∀ d ∈ rest.head?, Text.isBlank d = true) : Ends c rest := by
  rw [Ends]
  split
  · intro hquote
    cases h '"' hquote
  · split
    · trivial
    · exact h

/-! ### Ends of items -/

/-- **The quote that closes a text is the first that is not doubled.** -/
theorem quoted?_eq_some_iff :
    quoted? cs = some tail ↔
      ∃ s rest, tail = doubled s ++ ['"'] ∧ cs = tail ++ rest ∧ rest.head? ≠ some '"' := by
  constructor
  · intro h
    induction cs using quoted?.induct generalizing tail with
    | case1 => cases h
    | case2 cs ih =>
        rw [quoted?, Option.map_eq_some_iff] at h
        obtain ⟨tail, htail, rfl⟩ := h
        obtain ⟨s, rest, rfl, rfl, hrest⟩ := ih htail
        exact ⟨'"' :: s, rest, rfl, rfl, hrest⟩
    | case3 cs hsingle =>
        rw [quoted?.eq_3 _ _ hsingle, if_pos rfl] at h
        cases h
        refine ⟨[], cs, rfl, rfl, fun hhead => ?_⟩
        obtain ⟨rest, rfl⟩ := List.head?_eq_some_iff.1 hhead
        exact hsingle rest rfl rfl
    | case4 c cs hsingle hc ih =>
        rw [quoted?.eq_3 _ _ hsingle, if_neg hc, Option.map_eq_some_iff] at h
        obtain ⟨tail, htail, rfl⟩ := h
        obtain ⟨s, rest, rfl, rfl, hrest⟩ := ih htail
        refine ⟨c :: s, rest, ?_, rfl, hrest⟩
        rw [doubled_cons, if_neg hc]
        rfl
  · rintro ⟨s, rest, rfl, rfl, hrest⟩
    induction s with
    | nil =>
        have hsingle : ∀ cs, '"' = '"' → rest = '"' :: cs → False := by
          rintro cs - rfl
          exact hrest rfl
        show quoted? ('"' :: rest) = some ['"']
        rw [quoted?.eq_3 _ _ hsingle, if_pos rfl]
    | cons c s ih =>
        rw [doubled_cons]
        by_cases hc : c = '"'
        · rw [if_pos hc]
          show (quoted? (doubled s ++ ['"'] ++ rest)).map _ = _
          rw [ih]
          rfl
        · rw [if_neg hc]
          show quoted? (c :: (doubled s ++ ['"'] ++ rest)) = _
          rw [quoted?.eq_3 _ _ fun _ heq => absurd heq hc, if_neg hc, ih]
          rfl

/-- The hash sign that closes a date is the next one. -/
theorem dated?_eq_some_iff :
    dated? cs = some tail ↔ ∃ s rest, tail = s ++ ['#'] ∧ cs = tail ++ rest ∧ '#' ∉ s := by
  constructor
  · intro h
    induction cs generalizing tail with
    | nil => cases h
    | cons c cs ih =>
        rw [dated?] at h
        split at h
        · rename_i hc
          cases h
          exact ⟨[], cs, rfl, by rw [hc]; rfl, List.not_mem_nil⟩
        · rename_i hc
          obtain ⟨tail, htail, rfl⟩ := Option.map_eq_some_iff.1 h
          obtain ⟨s, rest, rfl, rfl, hs⟩ := ih htail
          refine ⟨c :: s, rest, rfl, rfl, fun hmem => ?_⟩
          rcases List.mem_cons.1 hmem with heq | hmem
          · exact hc heq.symm
          · exact hs hmem
  · rintro ⟨s, rest, rfl, rfl, hs⟩
    induction s with
    | nil => rfl
    | cons c s ih =>
        have hc : c ≠ '#' := fun heq => hs (heq ▸ List.mem_cons_self)
        show dated? (c :: (s ++ ['#'] ++ rest)) = _
        rw [dated?, if_neg hc, ih fun hmem => hs (List.mem_cons_of_mem c hmem)]
        rfl

/-- A word goes up to the next blank. -/
theorem takeWhile_eq_iff :
    cs.takeWhile (! Text.isBlank ·) = tail ↔
      ∃ rest, cs = tail ++ rest ∧ (∀ d ∈ tail, Text.isBlank d = false) ∧
        ∀ d ∈ rest.head?, Text.isBlank d = true := by
  constructor
  · rintro rfl
    refine ⟨cs.dropWhile (! Text.isBlank ·), List.takeWhile_append_dropWhile.symm, ?_, ?_⟩
    · intro d hd
      simpa using List.mem_takeWhile_imp hd
    · intro d hd
      have hstop := List.head?_dropWhile_not (! Text.isBlank ·) cs
      rw [hd] at hstop
      simpa using hstop
  · rintro ⟨rest, rfl, htail, hrest⟩
    exact takeWhile_append_of_stop (fun d hd => by rw [htail d hd]; rfl)
      (fun d hd => by rw [hrest d hd]; rfl)

/-- **The rest of an item is taken up to where the item ends.** -/
theorem itemTail_eq_ok_iff (hblank : Text.isBlank c = false) :
    itemTail c cs = .ok tail ↔ ∃ rest, cs = tail ++ rest ∧ Item (c :: tail) ∧ Ends c rest := by
  by_cases hquote : c = '"'
  · subst hquote
    rw [itemTail, if_pos rfl, elim_eq_ok_iff, quoted?_eq_some_iff]
    simp only [Ends, if_pos]
    constructor
    · rintro ⟨s, rest, rfl, hcs, hrest⟩
      exact ⟨rest, hcs, .text s, hrest⟩
    · rintro ⟨rest, hcs, hitem, hrest⟩
      cases hitem with
      | text s => exact ⟨s, rest, rfl, hcs, hrest⟩
      | word hquote _ _ => exact absurd rfl hquote
  by_cases hhash : c = '#'
  · subst hhash
    rw [itemTail, if_neg hquote, if_pos rfl, elim_eq_ok_iff, dated?_eq_some_iff]
    simp only [Ends, if_neg hquote, if_pos, and_true]
    constructor
    · rintro ⟨s, rest, rfl, hcs, hs⟩
      exact ⟨rest, hcs, .date hs⟩
    · rintro ⟨rest, hcs, hitem⟩
      cases hitem with
      | date hs => exact ⟨_, rest, rfl, hcs, hs⟩
      | word _ hhash _ => exact absurd rfl hhash
  · rw [itemTail, if_neg hquote, if_neg hhash, Except.ok.injEq, takeWhile_eq_iff]
    simp only [Ends, if_neg hquote, if_neg hhash]
    constructor
    · rintro ⟨rest, hcs, htail, hrest⟩
      exact ⟨rest, hcs, .word hquote hhash (List.forall_mem_cons.2 ⟨hblank, htail⟩), hrest⟩
    · rintro ⟨rest, hcs, hitem, hrest⟩
      cases hitem with
      | text s => exact absurd rfl hquote
      | date hs => exact absurd rfl hhash
      | word _ _ hword => exact ⟨rest, hcs, (List.forall_mem_cons.1 hword).2, hrest⟩

/-! ### Reading a layout -/

theorem items_nil : items [] = .ok [] := by rw [items.eq_def]

theorem items_blank (h : Text.isBlank c = true) : items (c :: cs) = items cs := by
  rw [items.eq_def]
  exact if_pos h

theorem items_cons (h : Text.isBlank c = false) :
    items (c :: cs) =
      (itemTail c cs).bind fun tail => (items (cs.drop tail.length)).map ((c :: tail) :: ·) := by
  rw [items.eq_def]
  dsimp only
  rw [if_neg (ne_true_of_eq_false h)]
  cases itemTail c cs with
  | error fault => rfl
  | ok tail =>
      dsimp only [Except.bind]
      cases items (cs.drop tail.length) <;> rfl

/-- **The items that are read are those of the layout.** -/
theorem items_eq_ok_iff : items cs = .ok xs ↔ Laid cs xs := by
  constructor
  · intro h
    induction cs using items.induct generalizing xs with
    | case1 =>
        rw [items_nil] at h
        cases h
        exact .done
    | case2 c cs hblank ih =>
        rw [items_blank hblank] at h
        exact .blank hblank (ih h)
    | case3 c cs hblank fault htail =>
        rw [items_cons (Bool.not_eq_true _ ▸ hblank), htail] at h
        cases h
    | case4 c cs hblank tail htail fault hrest ih =>
        rw [items_cons (Bool.not_eq_true _ ▸ hblank), htail] at h
        change (items (cs.drop tail.length)).map _ = _ at h
        rw [hrest] at h
        cases h
    | case5 c cs hblank tail htail ys hrest ih =>
        rw [items_cons (Bool.not_eq_true _ ▸ hblank), htail] at h
        change (items (cs.drop tail.length)).map _ = _ at h
        rw [hrest] at h
        cases h
        obtain ⟨rest, rfl, hitem, hends⟩ :=
          (itemTail_eq_ok_iff (Bool.not_eq_true _ ▸ hblank)).1 htail
        rw [List.drop_left] at ih hrest
        exact .item hitem hends (ih hrest)
  · intro h
    induction h with
    | done => exact items_nil
    | blank hblank _ ih =>
        rw [items_blank hblank]
        exact ih
    | @item c tail rest xs hitem hends _ ih =>
        have hblank : Text.isBlank c = false := by
          cases hitem with
          | text s => rfl
          | date hs => rfl
          | word _ _ hword => exact hword c List.mem_cons_self
        have htail := (itemTail_eq_ok_iff hblank).2 ⟨rest, rfl, hitem, hends⟩
        rw [items_cons hblank, htail]
        show (items ((tail ++ rest).drop tail.length)).map _ = _
        rw [List.drop_left, ih]
        rfl

/-- An item by itself is read as this item. -/
theorem items_of_item {item : List Char} (h : Item item) : items item = .ok [item] := by
  obtain ⟨c, tail, rfl⟩ := h.exists_cons
  have hlaid : Laid (c :: (tail ++ [])) [c :: tail] :=
    .item h (ends_of_blank fun d hd => nomatch hd) .done
  rw [List.append_nil] at hlaid
  exact items_eq_ok_iff.2 hlaid

/-! ### Joining items -/

/-- An item with the blanks behind it. -/
structure SpacedItem where
  item : List Char
  gap : List Char
  isItem : Item item
  isGap : ∀ c ∈ gap, Text.isBlank c = true

/-- Items and the blanks behind them as one text. -/
def joined (parts : List SpacedItem) : List Char := parts.flatMap fun part => part.item ++ part.gap

theorem laid_blanks {gap : List Char} (hgap : ∀ c ∈ gap, Text.isBlank c = true) (h : Laid cs xs) :
    Laid (gap ++ cs) xs := by
  induction gap with
  | nil => exact h
  | cons c gap ih =>
      obtain ⟨hblank, hgap⟩ := List.forall_mem_cons.1 hgap
      exact .blank hblank (ih hgap)

/-- Items are laid out in the text that joins them, if no two of them touch. -/
theorem laid_joined {parts : List SpacedItem} (h : ∀ part ∈ parts.dropLast, part.gap ≠ []) :
    Laid (joined parts) (parts.map SpacedItem.item) := by
  induction parts with
  | nil => exact .done
  | cons part parts ih =>
      obtain ⟨item, gap, hitem, hgap⟩ := part
      have hnext : Laid (joined parts) (parts.map SpacedItem.item) := by
        refine ih fun part hpart => h part ?_
        cases parts with
        | nil => cases hpart
        | cons next parts => exact List.mem_cons_of_mem _ hpart
      have hhead : ∀ d ∈ (gap ++ joined parts).head?, Text.isBlank d = true := by
        cases gap with
        | cons c gap =>
            intro d hd
            cases hd
            exact hgap c List.mem_cons_self
        | nil =>
            -- without blanks behind it the item is the last
            cases parts with
            | nil => exact fun d hd => nomatch hd
            | cons next parts => exact absurd rfl (h _ List.mem_cons_self)
      obtain ⟨c, tail, rfl⟩ := hitem.exists_cons
      show Laid (c :: tail ++ gap ++ joined parts) _
      rw [List.cons_append, List.cons_append, List.append_assoc]
      exact .item hitem (ends_of_blank hhead) (laid_blanks hgap hnext)

/-- A text that is laid out with items is these items with nothing but blanks around them. -/
theorem exists_joined (h : Laid cs xs) :
    ∃ lead parts, (∀ c ∈ lead, Text.isBlank c = true) ∧ parts.map SpacedItem.item = xs ∧
      cs = lead ++ joined parts := by
  induction h with
  | done => exact ⟨[], [], fun c hc => (List.not_mem_nil hc).elim, rfl, rfl⟩
  | blank hblank _ ih =>
      obtain ⟨lead, parts, hlead, hitems, rfl⟩ := ih
      exact ⟨_ :: lead, parts, List.forall_mem_cons.2 ⟨hblank, hlead⟩, hitems, rfl⟩
  | item hitem _ _ ih =>
      obtain ⟨lead, parts, hlead, hitems, rfl⟩ := ih
      refine ⟨[], ⟨_, lead, hitem, hlead⟩ :: parts, fun c hc => (List.not_mem_nil hc).elim,
        congrArg (_ :: ·) hitems, ?_⟩
      simp [joined]

/-- **Reading undoes joining, and joining reading.**  Items that are joined with blanks in between,
and any blanks at the two ends, are read back; and the text in which items are read is those items
in their order, with nothing but blanks before, between and after them. -/
theorem items_joined :
    (∀ (lead : List Char) (parts : List SpacedItem), (∀ c ∈ lead, Text.isBlank c = true) →
      (∀ part ∈ parts.dropLast, part.gap ≠ []) →
      items (lead ++ joined parts) = .ok (parts.map SpacedItem.item)) ∧
      ∀ source xs, items source = .ok xs →
        ∃ lead parts, (∀ c ∈ lead, Text.isBlank c = true) ∧ parts.map SpacedItem.item = xs ∧
          source = lead ++ joined parts := by
  constructor
  · intro lead parts hlead hgaps
    exact items_eq_ok_iff.2 (laid_blanks hlead (laid_joined hgaps))
  · intro source xs h
    exact exists_joined (items_eq_ok_iff.1 h)

/-- A text with a blank and quotes in it, a date with a blank in it, and a word with both marks. -/
theorem items_joined_three :
    (∀ c ∈ ['\t'], Text.isBlank c = true) ∧
      items ['\t', '"', 'a', ' ', '"', '"', '"', ' ', '#', '1', ' ', '2', '#', '\u3000', 'P', '"',
        '#'] = .ok [['"', 'a', ' ', '"', '"', '"'], ['#', '1', ' ', '2', '#'], ['P', '"', '#']] ∧
      ∃ lead parts, (∀ c ∈ lead, Text.isBlank c = true) ∧
        parts.map SpacedItem.item =
          [['"', 'a', ' ', '"', '"', '"'], ['#', '1', ' ', '2', '#'], ['P', '"', '#']] ∧
        ['\t', '"', 'a', ' ', '"', '"', '"', ' ', '#', '1', ' ', '2', '#', '\u3000', 'P', '"',
          '#'] = lead ++ joined parts := by
  have hlead : ∀ c ∈ ['\t'], Text.isBlank c = true := List.all_eq_true.1 rfl
  have hword : ∀ c ∈ ['P', '"', '#'], Text.isBlank c = false := by simp [Text.isBlank]
  have hhash : '#' ∉ ['1', ' ', '2'] := by simp
  have hread := items_joined.1 ['\t']
    [⟨_, [' '], .text ['a', ' ', '"'], List.all_eq_true.1 rfl⟩,
      ⟨_, ['\u3000'], .date hhash, List.all_eq_true.1 rfl⟩,
      ⟨_, [], .word (by decide) (by decide) hword, List.all_eq_true.1 rfl⟩] hlead (by simp)
  exact ⟨hlead, hread, items_joined.2 _ _ hread⟩

end Telemetry.Source
