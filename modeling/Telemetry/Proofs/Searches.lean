import Telemetry.Proofs.Substrings

/-!
# Searching and replacing

`InStr` finds the first place at which a text occurs (`Text.first_of_position?`), and `Replace`
replaces the occurrence it finds there and goes on behind it (`Text.replaceAll_of_some`).  Both
count characters, as `Left` and `Mid` do, so that the four functions agree on where an occurrence
begins and ends (`Textual.search_and_replace`).
-/

namespace Telemetry

/-! ### First occurrences -/

namespace Text

variable {t cs : List Char} {n : Nat}

/-- **A text is found at the first place at which it stands.** -/
theorem first_of_position? (h : position? t cs = some n) :
    t <+: cs.drop n ∧ ∀ m < n, ¬ t <+: cs.drop m := by
  refine ⟨List.isPrefixOf_iff_prefix.1 (isPrefixOf_drop_of_position? h), ?_⟩
  induction cs generalizing n with
  | nil =>
      rw [position?] at h
      split at h
      · cases h
        exact fun m hm => absurd hm (Nat.not_lt_zero m)
      · cases h
  | cons c cs ih =>
      rw [position?] at h
      split at h
      · cases h
        exact fun m hm => absurd hm (Nat.not_lt_zero m)
      · next hfirst =>
          obtain ⟨k, hk, rfl⟩ := Option.map_eq_some_iff.1 h
          intro m hm
          cases m with
          | zero => exact mt List.isPrefixOf_iff_prefix.2 hfirst
          | succ m => exact ih hk m (Nat.lt_of_succ_lt_succ hm)

/-- A text is not found exactly if it does not occur. -/
theorem position?_eq_none_iff : position? t cs = none ↔ ¬ t <:+: cs := by
  induction cs with
  | nil => simp [position?]
  | cons c cs ih =>
      rw [position?, List.infix_cons_iff]
      by_cases hfirst : t <+: c :: cs
      · simp [hfirst]
      · simp [hfirst, ih]

/-- What is found lies within the text. -/
theorem position?_add_length_le (h : position? t cs = some n) : n + t.length ≤ cs.length := by
  obtain ⟨hstands, hleast⟩ := first_of_position? h
  have hlength := hstands.length_le
  rw [List.length_drop] at hlength
  rcases Nat.lt_or_ge cs.length n with hlt | hle
  · -- behind its end a text has what it has at its end
    rw [List.drop_eq_nil_of_le (Nat.le_of_lt hlt)] at hstands
    exact absurd (by rwa [List.drop_length]) (hleast cs.length hlt)
  · omega

/-- Where nothing is found nothing is replaced. -/
theorem replaceAll_of_none (w : List Char) (h : position? t cs = none) :
    replaceAll t w cs = cs := by
  induction cs with
  | nil => rw [replaceAll]
  | cons c cs ih =>
      rw [position?] at h
      split at h
      · cases h
      · next hfirst =>
          rw [replaceAll, if_neg hfirst, ih (Option.map_eq_none_iff.1 h)]

/-- **The first occurrence is replaced, and the text behind it is treated in the same way.** -/
theorem replaceAll_of_some (w : List Char) (ht : t ≠ []) (h : position? t cs = some n) :
    replaceAll t w cs = cs.take n ++ w ++ replaceAll t w (cs.drop (n + t.length)) := by
  induction cs generalizing n with
  | nil => simp [position?, ht] at h
  | cons c cs ih =>
      rw [position?] at h
      split at h
      · next hfirst =>
          cases h
          obtain ⟨k, hk⟩ := Nat.exists_eq_succ_of_ne_zero (mt List.length_eq_zero_iff.1 ht)
          rw [replaceAll, if_pos hfirst, hk]
          simp
      · next hfirst =>
          obtain ⟨m, hm, rfl⟩ := Option.map_eq_some_iff.1 h
          rw [replaceAll, if_neg hfirst, ih hm, Nat.add_right_comm]
          rfl

end Text

/-! ### Positions that are answered -/

namespace Textual

theorem gives_position (a b : Value) :
    (Operator.textual position).Gives [a, b] (.int (occurrence a.chars b.chars)) :=
  (Operator.gives_iff rfl).2 rfl

theorem gives_replace (a : Value) {old : Value} (hold : old.chars ≠ []) (new : Value) :
    (Operator.textual replace).Gives [a, old, new]
      (ofChars (Text.replaceAll old.chars new.chars a.chars)) := by
  have hsome : ¬ old.chars.isEmpty = true := mt List.isEmpty_iff.1 hold
  exact (Operator.gives_iff rfl).2 (congrArg (fun cs => Except.ok (ofChars cs)) (if_neg hsome))

variable {s t : Value} {n : Nat}

/-- The position of an occurrence is one more than the number of characters in front of it. -/
theorem toInt_occurrence (hs : s.chars.length + 1 < 2 ^ 63)
    (h : Text.position? t.chars s.chars = some n) :
    (occurrence s.chars t.chars).toInt = n + 1 := by
  have hwithin := Text.position?_add_length_le h
  rw [occurrence, h]
  exact Int64.toInt_ofNat_of_lt (by omega)

/-- `Mid` has a text at a position exactly if the text stands there. -/
theorem gives_middle_iff (ht : t.chars.length < 2 ^ 63) (start : Int64) :
    (Operator.textual middle).Gives [s, .int start, .int (Int64.ofNat t.chars.length)]
        (.text t.toText) ↔
      t.chars <+: s.chars.drop (start.toInt.toNat - 1) := by
  have hsize : (Int64.ofNat t.chars.length).toInt = t.chars.length := Int64.toInt_ofNat_of_lt ht
  have hnonneg : 0 ≤ Int64.ofNat t.chars.length := by
    rw [Int64.le_iff_toInt_le, hsize]
    exact Int.natCast_nonneg _
  have hslice : slice s.chars start (Int64.ofNat t.chars.length) =
      (s.chars.drop (start.toInt.toNat - 1)).take t.chars.length := by
    rw [slice_of_nonneg _ _ hnonneg, slice_minus_one, count, hsize, Int.toNat_natCast]
  rw [List.prefix_iff_eq_take, ← hslice, ← ofChars_chars]
  constructor
  · intro hgives
    have hvalue := Except.ok.inj ((Operator.gives_iff rfl).1 hgives)
    simpa using (congrArg Value.chars hvalue).symm
  · intro hequal
    have hgives := gives_middle s start (Int64.ofNat t.chars.length)
    rwa [← hequal] at hgives

/-- **Replacing is done piece by piece**: what is in front of the first occurrence, the new text,
and what replacing makes of the text behind the occurrence. -/
theorem replaced_in_pieces (hs : s.chars.length + 1 < 2 ^ 63) (ht : t.chars ≠ []) (w : Value)
    (h : Text.position? t.chars s.chars = some n) :
    ∃ front rest tail,
      (Operator.textual left).Gives [s, .int (occurrence s.chars t.chars - 1)] (.text front) ∧
      (Operator.textual middle).Gives
        [s, .int (occurrence s.chars t.chars + Int64.ofNat t.chars.length), .int (-1)] rest ∧
      (Operator.textual replace).Gives [rest, t, w] (.text tail) ∧
      (Operator.textual replace).Gives [s, t, w] (.text (front ++ w.toText ++ tail)) := by
  have hwithin := Text.position?_add_length_le h
  have hposition := toInt_occurrence hs h
  have hsize : (Int64.ofNat t.chars.length).toInt = t.chars.length :=
    Int64.toInt_ofNat_of_lt (by omega)
  have hbefore : (occurrence s.chars t.chars - 1).toInt = n := by
    rw [Int64.toInt_sub, hposition, Int64.toInt_one, Int.add_sub_cancel]
    exact Int.bmod_eq_of_le (by omega) (by omega)
  have hbehind : (occurrence s.chars t.chars + Int64.ofNat t.chars.length).toInt =
      n + 1 + t.chars.length := by
    rw [Int64.toInt_add, hposition, hsize]
    exact Int.bmod_eq_of_le (by omega) (by omega)
  have hfront : count (occurrence s.chars t.chars - 1) = n := by
    rw [count, hbefore, Int.toNat_natCast]
  have hrest : slice s.chars (occurrence s.chars t.chars + Int64.ofNat t.chars.length) (-1) =
      s.chars.drop (n + t.chars.length) := by
    rw [slice_minus_one, hbehind]
    congr 1
    omega
  refine ⟨_, _, _, gives_left s _, gives_middle s _ (-1), gives_replace _ ht w, ?_⟩
  have hgives := gives_replace s ht w
  rw [Text.replaceAll_of_some _ ht h, ofChars, String.ofList_append, String.ofList_append,
    ofList_chars] at hgives
  rwa [hfront, chars_ofChars, hrest]

/-- **Searching and replacing agree.**  `InStr` answers zero for a text that does not occur, and
else the least position at which `Mid` has the text; and what `Replace` makes of a text is put
together from the pieces that `Left` and `Mid` cut at this position.  The bound says that the
positions in the text that is searched, and the one behind its end, are integers. -/
theorem search_and_replace (hs : s.chars.length + 1 < 2 ^ 63) (t w : Value) :
    ∃ p size : Int64, (Operator.textual position).Gives [s, t] (.int p) ∧
      (Operator.textual length).Gives [t] (.int size) ∧
      (p = 0 ↔ ¬ t.chars <:+: s.chars) ∧
      (p ≠ 0 → 1 ≤ p ∧
        (Operator.textual middle).Gives [s, .int p, .int size] (.text t.toText) ∧
        ∀ n : Int64, 1 ≤ n →
          (Operator.textual middle).Gives [s, .int n, .int size] (.text t.toText) → p ≤ n) ∧
      (t.chars ≠ [] →
        (p = 0 → (Operator.textual replace).Gives [s, t, w] (.text s.toText)) ∧
        (p ≠ 0 → ∃ front rest tail,
          (Operator.textual left).Gives [s, .int (p - 1)] (.text front) ∧
          (Operator.textual middle).Gives [s, .int (p + size), .int (-1)] rest ∧
          (Operator.textual replace).Gives [rest, t, w] (.text tail) ∧
          (Operator.textual replace).Gives [s, t, w] (.text (front ++ w.toText ++ tail)))) := by
  refine ⟨_, _, gives_position s t, gives_length t, ?_⟩
  cases hfound : Text.position? t.chars s.chars with
  | none =>
      have hzero : occurrence s.chars t.chars = 0 := by rw [occurrence, hfound]
      refine ⟨iff_of_true hzero (Text.position?_eq_none_iff.1 hfound), fun h => absurd hzero h,
        fun ht => ⟨fun _ => ?_, fun h => absurd hzero h⟩⟩
      have hgives := gives_replace s ht w
      rwa [Text.replaceAll_of_none _ hfound, ofChars_chars] at hgives
  | some n =>
      have hwithin := Text.position?_add_length_le hfound
      have hposition := toInt_occurrence hs hfound
      have hsome : occurrence s.chars t.chars ≠ 0 := by
        intro hzero
        rw [hzero, Int64.toInt_zero] at hposition
        omega
      have hoccurs : t.chars <:+: s.chars := by
        by_contra hnot
        rw [Text.position?_eq_none_iff.2 hnot] at hfound
        cases hfound
      obtain ⟨hstands, hleast⟩ := Text.first_of_position? hfound
      refine ⟨iff_of_false hsome (not_not.2 hoccurs), fun _ => ⟨?_, ?_, ?_⟩,
        fun ht => ⟨fun hzero => absurd hzero hsome, fun _ => replaced_in_pieces hs ht w hfound⟩⟩
      · rw [Int64.le_iff_toInt_le, hposition, Int64.toInt_one]
        omega
      · rw [gives_middle_iff (by omega), hposition]
        exact hstands
      · intro m hm hgives
        rw [gives_middle_iff (by omega)] at hgives
        rw [Int64.le_iff_toInt_le, Int64.toInt_one] at hm
        rw [Int64.le_iff_toInt_le, hposition]
        have hnot : ¬ m.toInt.toNat - 1 < n := fun hlt => hleast _ hlt hgives
        omega

/-- A text that occurs twice, where the occurrences overlap and have characters of two bytes. -/
theorem search_and_replace_overlapping :
    (Value.text "übäaäaä").chars.length + 1 < 2 ^ 63 ∧
      ∃ p size front rest tail,
        (Operator.textual position).Gives [.text "übäaäaä", .text "äaä"] (.int p) ∧
        (Operator.textual length).Gives [.text "äaä"] (.int size) ∧
        (Operator.textual left).Gives [.text "übäaäaä", .int (p - 1)] (.text front) ∧
        (Operator.textual middle).Gives [.text "übäaäaä", .int (p + size), .int (-1)] rest ∧
        (Operator.textual replace).Gives [rest, .text "äaä", .text "x"] (.text tail) ∧
        (Operator.textual replace).Gives [.text "übäaäaä", .text "äaä", .text "x"]
          (.text (front ++ "x" ++ tail)) := by
  have hlength : (Value.text "übäaäaä").chars.length + 1 < 2 ^ 63 := by decide +kernel
  have hoccurs : (Value.text "äaä").chars <:+: (Value.text "übäaäaä").chars := by decide +kernel
  obtain ⟨p, size, hp, hsize, hzero, -, hreplace⟩ :=
    search_and_replace hlength (.text "äaä") (.text "x")
  have hsome : p ≠ 0 := fun h => hzero.1 h hoccurs
  obtain ⟨front, rest, tail, hfront, hrest, htail, hall⟩ := (hreplace (by decide +kernel)).2 hsome
  exact ⟨hlength, p, size, front, rest, tail, hp, hsize, hfront, hrest, htail, hall⟩

end Textual

end Telemetry
