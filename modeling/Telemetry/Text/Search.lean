/-!
# Search, replacement and order of texts

Positions count characters. `position?` finds the first place at which a text
occurs, `replaceAll` replaces the occurrences from left to right, none of which
overlap, and `order` compares texts by the code points of their characters.
-/

namespace Telemetry.Text

/-- The number of characters in front of the first occurrence of `t`. -/
def position? (t : List Char) : List Char → Option Nat
  | [] => if t.isEmpty then some 0 else none
  | c :: cs => if t.isPrefixOf (c :: cs) then some 0 else (position? t cs).map (· + 1)

/-- A text with every occurrence of `t`, which is not empty, replaced by `w`. -/
def replaceAll (t w : List Char) : List Char → List Char
  | [] => []
  | c :: cs =>
    if t.isPrefixOf (c :: cs) then w ++ replaceAll t w (cs.drop (t.length - 1))
    else c :: replaceAll t w cs
termination_by cs => cs.length
decreasing_by
  · simp only [List.length_drop, List.length_cons]; omega
  · simp

/-- The order of texts, character by character. -/
def order : List Char → List Char → Ordering
  | [], [] => .eq
  | [], _ :: _ => .lt
  | _ :: _, [] => .gt
  | a :: as, b :: bs =>
    if a.toNat < b.toNat then .lt else if b.toNat < a.toNat then .gt else order as bs

example : position? "-".toList "ünit-7".toList = some 4 := by decide

example : replaceAll "aa".toList "b".toList "aaaa a".toList = "bb a".toList := by
  decide +kernel

/-- Where a text is found, it stands. -/
theorem isPrefixOf_drop_of_position? {t cs : List Char} {n : Nat} (h : position? t cs = some n) :
    t.isPrefixOf (cs.drop n) = true := by
  induction cs generalizing n with
  | nil =>
    cases t with
    | nil => simp
    | cons a as => simp [position?] at h
  | cons c cs ih =>
    rw [position?] at h
    split at h
    case isTrue hp =>
      cases h
      exact hp
    case isFalse =>
      obtain ⟨m, hm, rfl⟩ := Option.map_eq_some_iff.1 h
      exact ih hm

end Telemetry.Text
