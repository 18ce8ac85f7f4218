import Telemetry.Json.Token

/-!
# JSON trees

What a JSON text says: nothing, a truth value, a number, a string, a list or the
fields of an object in the order in which they stand. A text has one tree and
nothing behind it.
-/

namespace Telemetry.Json

/-- What a JSON text says. -/
inductive Tree where
  | null
  | bool (b : Bool)
  | number (d : Decimal)
  | string (units : List Nat)
  | array (items : List Tree)
  | object (fields : List (List Nat × Tree))

mutual

/-- The tree at the front of tokens and what follows it. -/
def tree? : Nat → List Token → Option (Tree × List Token)
  | 0, _ => none
  | fuel + 1, ts =>
    match ts with
    | .null :: rest => some (.null, rest)
    | .bool b :: rest => some (.bool b, rest)
    | .number d :: rest => some (.number d, rest)
    | .string units :: rest => some (.string units, rest)
    | .openArray :: .closeArray :: rest => some (.array [], rest)
    | .openArray :: rest => (items? fuel rest).map fun (xs, rest) => (.array xs, rest)
    | .openObject :: .closeObject :: rest => some (.object [], rest)
    | .openObject :: rest => (fields? fuel rest).map fun (fs, rest) => (.object fs, rest)
    | _ => none

/-- The items of a list up to its end, at least one. -/
def items? : Nat → List Token → Option (List Tree × List Token)
  | 0, _ => none
  | fuel + 1, ts => do
    let (x, rest) ← tree? fuel ts
    match rest with
    | .closeArray :: rest => return ([x], rest)
    | .comma :: rest =>
      let (xs, rest) ← items? fuel rest
      return (x :: xs, rest)
    | _ => none

/-- The fields of an object up to its end, at least one. -/
def fields? : Nat → List Token → Option (List (List Nat × Tree) × List Token)
  | 0, _ => none
  | fuel + 1, ts =>
    match ts with
    | .string key :: .colon :: ts => do
      let (x, rest) ← tree? fuel ts
      match rest with
      | .closeObject :: rest => return ([(key, x)], rest)
      | .comma :: rest =>
        let (fs, rest) ← fields? fuel rest
        return ((key, x) :: fs, rest)
      | _ => none
    | _ => none

end

/-- The tree of a text. Of any two steps one takes a token. -/
def Tree.ofText? (cs : List Char) : Option Tree := do
  let ts ← tokens? cs
  match tree? (2 * ts.length + 1) ts with
  | some (t, []) => some t
  | _ => none

end Telemetry.Json
