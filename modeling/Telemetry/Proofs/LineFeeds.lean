import Mathlib.Tactic.SplitIfs
import Telemetry.Proofs.Library
import Telemetry.Replay.Report

/-!
# Texts without line feeds

What the program composes by itself has no line feed: numbers, dates and times, and all JSON, in
which a line feed inside a text is written as an escape.  What is left are the texts that are
copied as they stand.

* `notMem_quote`: a quoted text has no line feed, whatever the text.
* `Json.notMem_ofValue`, `Json.notMem_ofCursor`: nor has the JSON of a value or of a cursor.
* `notMem_stamp`: nor has the time of a record.
* `Format.notMem_summary`: the summary is one line in either format.
-/

namespace Telemetry

/-! ### Numbers -/

namespace Number

@[simp] theorem notMem_digits (n : Nat) : '\n' ∉ digits n := by
  intro h
  have hdigit : '\n'.isDigit = true :=
    Nat.isDigit_of_mem_toDigits (by decide) (by decide) h
  exact nomatch hdigit

@[simp] theorem notMem_integerText (x : Int) : '\n' ∉ integerText x := by
  rw [integerText]
  split <;> simp

@[simp] theorem notMem_padded (width n : Nat) : '\n' ∉ padded width n := by
  simp [padded, List.mem_replicate]

namespace Layout

theorem notMem_positionalText (l : Layout) {ds : List Char} (point : Int) (h : '\n' ∉ ds) :
    '\n' ∉ l.positionalText ds point := by
  have hfront : '\n' ∉ ds.take point.toNat := fun hmem => h (List.mem_of_mem_take hmem)
  have hback : '\n' ∉ ds.drop point.toNat := fun hmem => h (List.mem_of_mem_drop hmem)
  rw [positionalText]
  split_ifs <;> simp [List.mem_replicate, h, hfront, hback]

theorem notMem_exponentText (l : Layout) {ds : List Char} (exponent : Int) (h : '\n' ∉ ds) :
    '\n' ∉ l.exponentText ds exponent := by
  have hfront : '\n' ∉ ds.take 1 := fun hmem => h (List.mem_of_mem_take hmem)
  have hback : '\n' ∉ ds.drop 1 := fun hmem => h (List.mem_of_mem_drop hmem)
  rw [exponentText]
  split_ifs <;> simp [-List.drop_one, hfront, hback]

@[simp] theorem notMem_finiteText (l : Layout) (x : Float) : '\n' ∉ l.finiteText x := by
  have hsign : '\n' ∉ (if x.toBits.toNat < Word.halfCount then [] else ['-']) := by
    split <;> simp
  rw [finiteText]
  split
  · refine fun hmem => (List.mem_append.1 hmem).elim hsign ?_
    split <;> simp
  · refine fun hmem => (List.mem_append.1 hmem).elim hsign ?_
    split
    · exact l.notMem_positionalText _ (notMem_digits _)
    · split
      · exact l.notMem_positionalText _ (notMem_digits _)
      · exact l.notMem_exponentText _ (notMem_digits _)

end Layout

end Number

/-! ### Dates and times -/

namespace Calendar

@[simp] theorem notMem_dateText (t : Instant) : '\n' ∉ dateText t := by
  simp only [dateText, padText, two]
  split_ifs <;> simp

@[simp] theorem notMem_timeText (t : Instant) : '\n' ∉ timeText t := by
  have hfraction : '\n' ∉ fractionText t := by
    rw [fractionText]
    split_ifs <;> simp
  simp [timeText, two, hfraction]

end Calendar

theorem Replay.notMem_stamp (t : Instant) : '\n' ∉ stamp t := by
  simp [stamp]

/-! ### JSON -/

namespace Text

theorem hexDigit_ne {n : Nat} (h : n < 16) : hexDigit n ≠ '\n' := by
  have hall : ∀ n < 16, Nat.digitChar n ≠ '\n' := by decide
  exact hall n h

/-- A line feed is never written as it is. -/
theorem notMem_escape (c : Char) : '\n' ∉ escape c := by
  rw [escape]
  split_ifs with hquote hslash hfeed hreturn htab hback hform hcontrol
  all_goals try decide
  · have hhigh := hexDigit_ne (n := c.toNat / 16) (by omega)
    have hlow := hexDigit_ne (n := c.toNat % 16) (by omega)
    simp [hhigh.symm, hlow.symm]
  · exact fun hmem => hfeed (List.mem_singleton.1 hmem).symm

/-- A quoted text has no line feed. -/
@[simp] theorem notMem_quote (cs : List Char) : '\n' ∉ quote cs := by
  simp [quote, notMem_escape]

end Text

namespace Json

theorem notMem_object {fields : List (String × List Char)} (h : ∀ f ∈ fields, '\n' ∉ f.2) :
    '\n' ∉ object fields := by
  have htexts : '\n' ∉ List.intercalate [',']
      (fields.map fun f => Text.quote f.1.toList ++ ':' :: f.2) := by
    refine notMem_intercalate (by decide) fun text htext => ?_
    obtain ⟨f, hf, rfl⟩ := List.mem_map.1 htext
    simp [h f hf]
  simp [object, htexts]

@[simp] theorem notMem_text (cs : List Char) : '\n' ∉ text cs := Text.notMem_quote cs

@[simp] theorem notMem_integer (x : Int) : '\n' ∉ integer x := Number.notMem_integerText x

@[simp] theorem notMem_float (x : Float) : '\n' ∉ float x := by
  rw [float]
  split
  · exact Number.signed.notMem_finiteText x
  · decide

theorem notMem_optional {f : α → List Char} (h : ∀ x, '\n' ∉ f x) (x : Option α) :
    '\n' ∉ optional f x := by
  cases x with
  | none => show '\n' ∉ "null".toList; decide
  | some x => exact h x

theorem notMem_mode (name : String) (fields : List (String × Int64)) : '\n' ∉ mode name fields := by
  refine notMem_object fun f hf => ?_
  rcases List.mem_cons.1 hf with rfl | hf
  · exact notMem_text _
  · obtain ⟨g, -, rfl⟩ := List.mem_map.1 hf
    exact notMem_integer _

theorem notMem_ofValue (v : Value) : '\n' ∉ ofValue v := by
  cases v <;> exact notMem_object (by simp)

theorem notMem_ofCursor (c : Cursor) : '\n' ∉ ofCursor c := by
  have hstart : ∀ place, '\n' ∉ ofStart place := by
    intro place
    cases place <;> exact notMem_mode _ _
  have hword : ∀ x : Int64, '\n' ∉ integer x.toInt := fun x => notMem_integer x.toInt
  refine notMem_object (List.forall_mem_cons.2 ⟨notMem_optional hstart _, ?_⟩)
  exact List.forall_mem_cons.2 ⟨notMem_optional hword _,
    List.forall_mem_singleton.2 (notMem_optional hword _)⟩

end Json

/-! ### The summary -/

/-- The summary is one line. -/
theorem Replay.Format.notMem_summary (s : Replay.Summary) (format : Format) :
    '\n' ∉ format.summary s := by
  have hcursor := Json.notMem_ofCursor s.cursor
  cases format with
  | text =>
      have hnames : '\n' ∉ "evaluated=".toList ∧ '\n' ∉ " skipped=".toList ∧
          '\n' ∉ " failed=".toList ∧ '\n' ∉ " cursor=".toList := by decide +kernel
      unfold summary
      simp only [List.mem_append, not_or]
      exact ⟨⟨⟨⟨⟨⟨⟨hnames.1, Number.notMem_digits _⟩, hnames.2.1⟩, Number.notMem_digits _⟩,
        hnames.2.2.1⟩, Number.notMem_digits _⟩, hnames.2.2.2⟩, hcursor⟩
  | json =>
      refine Json.notMem_object (List.forall_mem_singleton.2 (Json.notMem_object ?_))
      simp only [List.forall_mem_cons]
      exact ⟨Json.notMem_integer _, Json.notMem_integer _, Json.notMem_integer _, hcursor,
        List.forall_mem_nil _⟩

end Telemetry
