import Telemetry.Fault
import Telemetry.Text.Blank

/-!
# Source text

The text of an expression is items with blanks between them. A quoted text and a
date between hash signs are one item each, blanks included, and end with their
closing mark, so that the next item may follow without a blank.
-/

namespace Telemetry.Source

/-- What follows an opening quote, up to the quote that closes it; a doubled quote
does not close. -/
def quoted? : List Char → Option (List Char)
  | [] => none
  | '"' :: '"' :: cs => (quoted? cs).map ('"' :: '"' :: ·)
  | c :: cs => if c = '"' then some ['"'] else (quoted? cs).map (c :: ·)

/-- What follows an opening hash sign, up to the next one. -/
def dated? : List Char → Option (List Char)
  | [] => none
  | c :: cs => if c = '#' then some ['#'] else (dated? cs).map (c :: ·)

/-- The rest of the item that `c` starts, out of the characters after it. -/
def itemTail (c : Char) (cs : List Char) : Outcome (List Char) :=
  let unterminated (kind : String) : Fault :=
    .parse (String.ofList (c :: cs)) ("unterminated " ++ kind ++ " literal")
  if c = '"' then (quoted? cs).elim (.error (unterminated "text")) .ok
  else if c = '#' then (dated? cs).elim (.error (unterminated "date")) .ok
  else .ok (cs.takeWhile (! Text.isBlank ·))

/-- The items of a source text. -/
def items : List Char → Outcome (List (List Char))
  | [] => .ok []
  | c :: cs =>
    if Text.isBlank c then items cs
    else
      match itemTail c cs with
      | .error fault => .error fault
      | .ok tail =>
        match items (cs.drop tail.length) with
        | .error fault => .error fault
        | .ok rest => .ok ((c :: tail) :: rest)
termination_by cs => cs.length
decreasing_by
  · simp
  · simp only [List.length_drop, List.length_cons]; omega

/-- Whether an item can be the name of a variable. -/
def isName : List Char → Bool
  | [] => false
  | c :: cs =>
    (c.isAlpha || c == '_') &&
      cs.all fun c => c.isAlphanum || c == '_' || c == '.' || c == '[' || c == ']'

end Telemetry.Source
