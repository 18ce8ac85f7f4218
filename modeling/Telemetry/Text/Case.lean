import Telemetry.Text.CaseTable

/-!
# Upper and lower case

Full case mapping of texts, without regard to a language. Characters map one by
one, with one exception: a capital sigma becomes the final form of the small one
at the end of a word. The word is looked for on both sides, through the
characters that carry no case of their own.
-/

namespace Telemetry.Text

/-- Whether a run moves the character with code point `n`. -/
def CaseRun.covers (r : CaseRun) (n : Nat) : Bool :=
  r.first ≤ n && n ≤ r.last && (n - r.first) % r.step == 0

/-- The characters that `c` becomes, by a list of expansions and a list of runs. -/
def mapCase (expansions : List (Nat × List Nat)) (runs : List CaseRun) (c : Char) : List Char :=
  match expansions.find? (·.1 == c.toNat) with
  | some (_, ns) => ns.map Char.ofNat
  | none =>
    match runs.find? (·.covers c.toNat) with
    | some r => [Char.ofNat (Int.toNat (c.toNat + r.shift))]
    | none => [c]

/-- The upper case of a text. -/
def upper (cs : List Char) : List Char :=
  cs.flatMap (mapCase upperExpansions upperRuns)

/-- Whether one of the ranges holds `c`. -/
def inRanges (ranges : List (Nat × Nat)) (c : Char) : Bool :=
  ranges.any fun r => r.1 ≤ c.toNat && c.toNat ≤ r.2

/-- Whether the first character that a search does not look through has case. -/
def meetsCased (cs : List Char) : Bool :=
  match cs.dropWhile (inRanges ignorableRanges) with
  | [] => false
  | c :: _ => inRanges casedRanges c

/-- The lower case of a text; `before` holds, nearest first, the characters in
front of it. -/
def lowerAfter : List Char → List Char → List Char
  | _, [] => []
  | before, c :: cs =>
    let mapped :=
      if c = 'Σ' then (if meetsCased before && !meetsCased cs then ['ς'] else ['σ'])
      else mapCase lowerExpansions lowerRuns c
    mapped ++ lowerAfter (c :: before) cs

/-- The lower case of a text. -/
def lower (cs : List Char) : List Char := lowerAfter [] cs

example : upper "straße".toList = "STRASSE".toList := by decide +kernel

example : lower "ΑΣ Σ".toList = "ας σ".toList := by decide +kernel

end Telemetry.Text
