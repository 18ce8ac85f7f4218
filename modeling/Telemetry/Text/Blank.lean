/-!
# Blank characters

The characters that separate items and that trimming removes are the ones with
the Unicode property `White_Space`. Besides the class itself this file holds
trimming, stated on lists of characters.
-/

namespace Telemetry.Text

/-- The Unicode property `White_Space`. -/
def isBlank (c : Char) : Bool :=
  let n := c.toNat
  (9 ≤ n && n ≤ 13) || n == 0x20 || n == 0x85 || n == 0xA0 || n == 0x1680 ||
    (0x2000 ≤ n && n ≤ 0x200A) || n == 0x2028 || n == 0x2029 || n == 0x202F ||
    n == 0x205F || n == 0x3000

/-- What is left after the blanks at the front. -/
def trimStart (cs : List Char) : List Char := cs.dropWhile isBlank

/-- What is left before the blanks at the back. -/
def trimEnd (cs : List Char) : List Char := (trimStart cs.reverse).reverse

/-- What is left between the blanks at the two ends. -/
def trim (cs : List Char) : List Char := trimEnd (trimStart cs)

/-- The blanks of ASCII, without the vertical tab. -/
def isSpace (c : Char) : Bool :=
  c = ' ' || c = '\t' || c = '\n' || c = '\r' || c = '\x0c'

example : trim " \u00a0a b\n\u3000".toList = "a b".toList := by decide

example : isBlank '\u200b' = false ∧ isBlank '\ufeff' = false := by decide

/-- A text that does not start with a blank keeps its front. -/
theorem trimStart_of_head {c : Char} {cs : List Char} (h : isBlank c = false) :
    trimStart (c :: cs) = c :: cs := by
  simp [trimStart, List.dropWhile, h]

/-- A text that neither starts nor ends with a blank is trimmed already. -/
theorem trim_of_ends {cs : List Char} (hfirst : ∀ c ∈ cs.head?, isBlank c = false)
    (hlast : ∀ c ∈ cs.getLast?, isBlank c = false) : trim cs = cs := by
  have start : ∀ ds : List Char, (∀ c ∈ ds.head?, isBlank c = false) → trimStart ds = ds := by
    intro ds hd
    cases ds with
    | nil => rfl
    | cons c cs => exact trimStart_of_head (hd c (by simp))
  rw [trim, start cs hfirst, trimEnd, start cs.reverse (by simpa using hlast), List.reverse_reverse]

end Telemetry.Text
