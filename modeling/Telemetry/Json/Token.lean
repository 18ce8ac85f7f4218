import Telemetry.Json.Decimal

/-!
# JSON tokens

The tokens of a JSON text, blanks left out. The content of a string is kept in
units: a character stands for itself, an escape with four hexadecimal digits for
the number that these spell. Two such escapes may be the halves of one character;
a half alone is no text, but it is a string.
-/

namespace Telemetry.Json

/-- The marks, words, numbers and strings of JSON. -/
inductive Token where
  | openObject
  | closeObject
  | openArray
  | closeArray
  | colon
  | comma
  | null
  | bool (b : Bool)
  | number (d : Decimal)
  | string (units : List Nat)
  deriving DecidableEq

/-- The characters that may stand between tokens. -/
def isSpace (c : Char) : Bool := c = ' ' || c = '\n' || c = '\t' || c = '\r'

/-- The unit of an escape that has a letter of its own. -/
def escapeUnit? : Char → Option Nat
  | '"' => some 0x22
  | '\\' => some 0x5C
  | '/' => some 0x2F
  | 'b' => some 8
  | 'f' => some 12
  | 'n' => some 10
  | 'r' => some 13
  | 't' => some 9
  | _ => none

/-- The number that four hexadecimal digits spell. -/
def hexUnit? (ds : List Char) : Option Nat := do
  let values ← ds.mapM (Number.digitValue? 16)
  return values.foldl (fun n d => 16 * n + d) 0

/-- The units of a string behind its opening quote, and what follows the closing
one. -/
def units? : List Char → Option (List Nat × List Char)
  | [] => none
  | '\\' :: 'u' :: a :: b :: c :: d :: cs => do
    let unit ← hexUnit? [a, b, c, d]
    let (units, rest) ← units? cs
    return (unit :: units, rest)
  | '\\' :: c :: cs => do
    let unit ← escapeUnit? c
    let (units, rest) ← units? cs
    return (unit :: units, rest)
  | c :: cs =>
    if c = '"' then some ([], cs)
    else if c.toNat < 32 ∨ c = '\\' then none
    else do
      let (units, rest) ← units? cs
      return (c.toNat :: units, rest)

/-- The text that units stand for; none if half of a character stands alone. -/
def textOfUnits? : List Nat → Option (List Char)
  | [] => some []
  | u :: us =>
    if 0xDC00 ≤ u ∧ u ≤ 0xDFFF then none
    else if 0xD800 ≤ u ∧ u ≤ 0xDBFF then
      match us with
      | v :: vs =>
        if 0xDC00 ≤ v ∧ v ≤ 0xDFFF then
          (textOfUnits? vs).map
            (Char.ofNat (0x10000 + 0x400 * (u - 0xD800) + (v - 0xDC00)) :: ·)
        else none
      | [] => none
    else (textOfUnits? us).map (Char.ofNat u :: ·)

/-- The words that are tokens. -/
def words : List (List Char × Token) :=
  [("null".toList, .null), ("true".toList, .bool true), ("false".toList, .bool false)]

/-- The token at the front of a text and what follows it. -/
def token? (cs : List Char) : Option (Token × List Char) :=
  match cs with
  | [] => none
  | '{' :: rest => some (.openObject, rest)
  | '}' :: rest => some (.closeObject, rest)
  | '[' :: rest => some (.openArray, rest)
  | ']' :: rest => some (.closeArray, rest)
  | ':' :: rest => some (.colon, rest)
  | ',' :: rest => some (.comma, rest)
  | '"' :: rest => (units? rest).map fun (units, rest) => (.string units, rest)
  | c :: _ =>
    if c = '-' || c.isDigit then (Decimal.prefix? cs).map fun (d, rest) => (.number d, rest)
    else
      (words.find? fun w => w.1.isPrefixOf cs).map fun w => (w.2, cs.drop w.1.length)

/-- The tokens of a text, read off in at most `steps` steps. -/
def tokensIn? : Nat → List Char → Option (List Token)
  | _, [] => some []
  | 0, _ :: _ => none
  | steps + 1, c :: cs =>
    if isSpace c then tokensIn? steps cs
    else do
      let (t, rest) ← token? (c :: cs)
      let ts ← tokensIn? steps rest
      return t :: ts

/-- The tokens of a text. Every step takes a character at least. -/
def tokens? (cs : List Char) : Option (List Token) := tokensIn? cs.length cs

example : tokens? "[1, \"\\u00e9\"]".toList
    = some [.openArray, .number ⟨false, ['1'], [], none⟩, .comma, .string [0xE9], .closeArray] := by
  decide +kernel

example : textOfUnits? [0xD83D, 0xDE00] = some ['😀'] ∧ textOfUnits? [0xD83D] = none := by decide

end Telemetry.Json
