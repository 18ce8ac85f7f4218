import Mathlib.Algebra.Group.Int.Defs
import Mathlib.Algebra.Group.Nat.Defs
import Telemetry.Proofs.Application

/-!
# Substrings

`Left`, `Right` and `Mid` count characters from either end and keep their counts within the text.
A text that is cut at any count falls into two parts, which neither lose nor repeat a character
(`Textual.substrings_split`).
-/

namespace Telemetry

/-- The integer behind one that is not the greatest. -/
theorem Word.toInt_succ {n : Int64} (h : n < Int64.maxValue) : (n + 1).toInt = n.toInt + 1 := by
  have hbounds := toInt_bounds n
  have hlt : n.toInt < 2 ^ 63 - 1 := Int64.lt_iff_toInt_lt.1 h
  have hone : Int64.toInt 1 = 1 := rfl
  rw [Int64.toInt_add, hone]
  exact Int.bmod_eq_of_le (by omega) (by omega)

namespace Textual

/-! ### Counts and positions -/

/-- A position is one more than the number of characters in front of it. -/
theorem count_before (n : Int64) : count (Word.subSaturating n 1) = n.toInt.toNat - 1 := by
  have hbounds := Word.toInt_bounds n
  have hone : Int64.toInt 1 = 1 := rfl
  rw [count, Word.subSaturating, Word.toInt_saturate, hone]
  omega

/-- What a text has behind a position. -/
theorem slice_minus_one (s : List Char) (start : Int64) :
    slice s start (-1) = s.drop (start.toInt.toNat - 1) := by
  rw [slice, count_before]
  exact if_pos (by decide)

/-- A limited slice is the beginning of the unlimited one. -/
theorem slice_of_nonneg (s : List Char) (start : Int64) {length : Int64} (h : 0 ≤ length) :
    slice s start length = (slice s start (-1)).take (count length) := by
  rw [slice_minus_one, slice, count_before]
  exact if_neg (Int64.not_lt.2 h)

/-! ### What the functions make of their operands -/

@[simp] theorem chars_ofChars (cs : List Char) : (ofChars cs).chars = cs := String.toList_ofList

/-- The characters of a value are those of its text. -/
theorem ofList_chars (v : Value) : String.ofList v.chars = v.toText := by
  cases v with
  | text s => exact String.ofList_toList
  | _ => rfl

theorem ofChars_chars (v : Value) : ofChars v.chars = .text v.toText :=
  congrArg Value.text (ofList_chars v)

section Gives

variable (a b : Value) (n m : Int64)

theorem gives_concat : (Operator.textual concat).Gives [a, b] (ofChars (a.chars ++ b.chars)) :=
  (Operator.gives_iff rfl).2 rfl

theorem gives_length : (Operator.textual length).Gives [a] (.int (Int64.ofNat a.chars.length)) :=
  (Operator.gives_iff rfl).2 rfl

theorem gives_left :
    (Operator.textual left).Gives [a, .int n] (ofChars (a.chars.take (count n))) :=
  (Operator.gives_iff rfl).2 rfl

theorem gives_right :
    (Operator.textual right).Gives [a, .int n]
      (ofChars (a.chars.drop (a.chars.length - count n))) :=
  (Operator.gives_iff rfl).2 rfl

theorem gives_middle :
    (Operator.textual middle).Gives [a, .int n, .int m] (ofChars (slice a.chars n m)) :=
  (Operator.gives_iff rfl).2 rfl

end Gives

/-- Two parts make a text if their characters do. -/
theorem gives_concat_of_append {s : Value} {front back : List Char} (h : front ++ back = s.chars) :
    (Operator.textual concat).Gives [ofChars front, ofChars back] (.text s.toText) := by
  have hconcat := gives_concat (ofChars front) (ofChars back)
  rwa [chars_ofChars, chars_ofChars, h, ofChars_chars] at hconcat

/-! ### Cutting -/

variable {s : Value} {n : Int64}

/-- What is left of a text without its first characters, counted from the back. -/
theorem drop_length_sub (hs : s.chars.length < 2 ^ 63)
    (hroom : (s.chars.length : Int) - n.toInt < 2 ^ 63) :
    s.chars.drop (s.chars.length - count (Int64.ofNat s.chars.length - n)) =
      s.chars.drop (count n) := by
  have hbounds := Word.toInt_bounds n
  have hsize : (Int64.ofNat s.chars.length).toInt = s.chars.length := Int64.toInt_ofNat_of_lt hs
  have hdifference : (Int64.ofNat s.chars.length - n).toInt = s.chars.length - n.toInt := by
    rw [Int64.toInt_sub, hsize]
    exact Int.bmod_eq_of_le (by omega) (by omega)
  rw [count, count, hdifference]
  rcases Nat.le_total n.toInt.toNat s.chars.length with hle | hle
  · congr 1
    omega
  · -- a count beyond the text leaves nothing, from either end
    rw [List.drop_eq_nil_of_le hle]
    exact List.drop_eq_nil_of_le (by omega)

/-- **A text that is cut neither loses nor repeats a character.**  `Left` takes as many characters
as it is asked for, as far as there are any, and what it leaves is what `Mid` has from the next
position on and what `Right` has of the rest.  A limited `Mid` is the beginning of the unlimited
one. -/
theorem substrings_split (hs : s.chars.length < 2 ^ 63) (hn : n < Int64.maxValue)
    (hroom : (s.chars.length : Int) - n.toInt < 2 ^ 63) :
    (∃ size front back last, (Operator.textual length).Gives [s] (.int size) ∧
      (Operator.textual left).Gives [s, .int n] front ∧
      (Operator.textual middle).Gives [s, .int (n + 1), .int (-1)] back ∧
      (Operator.textual right).Gives [s, .int (size - n)] last ∧
      (Operator.textual concat).Gives [front, back] (.text s.toText) ∧
      (Operator.textual concat).Gives [front, last] (.text s.toText) ∧
      ∃ kept, (Operator.textual length).Gives [front] (.int kept) ∧
        kept.toInt = max 0 (min n.toInt size.toInt)) ∧
    ∀ start limit : Int64, 0 ≤ limit →
      ∃ tail piece, (Operator.textual middle).Gives [s, .int start, .int (-1)] tail ∧
        (Operator.textual middle).Gives [s, .int start, .int limit] piece ∧
        (Operator.textual left).Gives [tail, .int limit] piece := by
  have hbounds := Word.toInt_bounds n
  constructor
  · refine ⟨_, _, _, _, gives_length s, gives_left s n, gives_middle s (n + 1) (-1),
      gives_right s _, gives_concat_of_append ?_, gives_concat_of_append ?_, _,
      gives_length _, ?_⟩
    · have hposition : (n + 1).toInt.toNat - 1 = count n := by
        rw [Word.toInt_succ hn, count]
        omega
      rw [slice_minus_one, hposition, List.take_append_drop]
    · rw [drop_length_sub hs hroom, List.take_append_drop]
    · rw [chars_ofChars, List.length_take, Int64.toInt_ofNat_of_lt (by omega),
        Int64.toInt_ofNat_of_lt hs, count]
      omega
  · intro start limit hlimit
    refine ⟨_, _, gives_middle s start (-1), gives_middle s start limit, ?_⟩
    have hleft := gives_left (ofChars (slice s.chars start (-1))) limit
    rwa [chars_ofChars, ← slice_of_nonneg s.chars start hlimit] at hleft

/-- More characters than there are, of a text of which two take several bytes. -/
theorem substrings_split_beyond :
    (Value.text "größe").chars.length < 2 ^ 63 ∧ (7 : Int64) < Int64.maxValue ∧
      ((Value.text "größe").chars.length : Int) - (7 : Int64).toInt < 2 ^ 63 ∧
      ∃ size front last, (Operator.textual length).Gives [.text "größe"] (.int size) ∧
        (Operator.textual left).Gives [.text "größe", .int 7] front ∧
        (Operator.textual right).Gives [.text "größe", .int (size - 7)] last ∧
        (Operator.textual concat).Gives [front, last] (.text "größe") := by
  have hlength : (Value.text "größe").chars.length < 2 ^ 63 := by decide +kernel
  have hroom : ((Value.text "größe").chars.length : Int) - (7 : Int64).toInt < 2 ^ 63 := by
    decide +kernel
  obtain ⟨⟨size, front, back, last, hsize, hfront, -, hlast, -, hjoined, -⟩, -⟩ :=
    substrings_split hlength (by decide) hroom
  exact ⟨hlength, by decide, hroom, size, front, last, hsize, hfront, hlast, hjoined⟩

end Textual

end Telemetry
