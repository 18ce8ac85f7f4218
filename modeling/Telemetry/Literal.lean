import Telemetry.Number.Form
import Telemetry.Number.Reading
import Telemetry.Text.Digit
import Telemetry.Value

/-!
# Literals

The written forms of values: integers and doubles in decimal, integers in
hexadecimal and binary digits, texts between quotes with inner quotes doubled,
and dates between hash signs. The form decides the kind first; a text that has
the form of a kind but not a value of it is a fault and nothing else.
-/

namespace Telemetry.Literal

/-- The text of an integer in a radix: an ampersand, one of two marks, digits. -/
def radixDigits? (base : Nat) (lower upper : Char) : List Char → Option (List Char)
  | '&' :: mark :: ds =>
    if (mark = lower ∨ mark = upper) ∧ ds ≠ [] ∧ ds.all (fun c => (Number.digitValue? base c).isSome)
    then some ds else none
  | _ => none

/-- What stands between two marks of a kind. -/
def between? (mark : Char) : List Char → Option (List Char)
  | c :: cs => if c = mark ∧ cs.getLast? = some mark then some cs.dropLast else none
  | [] => none

/-- The value of an item, or none if it has not the form of a literal. -/
def parse? (item : List Char) : Outcome (Option Value) :=
  let refuse (reason : String) : Outcome (Option Value) :=
    .error (.parse (String.ofList item) reason)
  let integer (read : Except Number.IntegerFault Int64) : Outcome (Option Value) :=
    match read with
    | .ok i => .ok (some (.int i))
    | .error fault => refuse fault.message
  if Number.isInteger Text.isDecimal item then integer (Number.readWord item)
  else if Number.isNumber Text.isDecimal item then
    match Number.float? item with
    | some x => .ok (some (.float x))
    | none => refuse "invalid float literal"
  else
    match radixDigits? 16 'h' 'H' item, radixDigits? 2 'b' 'B' item with
    | some ds, _ => integer (Number.readBits 16 ds)
    | none, some ds => integer (Number.readBits 2 ds)
    | none, none =>
      match between? '"' item, between? '#' item with
      | some inner, _ => .ok (some (.text (String.ofList (Text.replaceAll ['"', '"'] ['"'] inner))))
      | none, some inner =>
        match Calendar.parse? inner with
        | some t => .ok (some (.date t))
        | none => refuse "invalid date literal"
      | none, none => .ok none

end Telemetry.Literal
