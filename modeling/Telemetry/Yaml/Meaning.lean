import Telemetry.Number.Reading
import Telemetry.Yaml.Node

/-!
# What YAML scalars mean

A plain scalar is null, a truth value, an integer, a double or a text, by its
spelling; every other scalar is a text unless its tag says what it is. An integer
may be written in base 2, 8, 10 or 16. Several digits with a zero first are a text.
-/

namespace Telemetry.Yaml

/-- What a scalar says. -/
inductive Meaning where
  | null
  | bool (b : Bool)
  | integer (n : Int)
  | float (x : Float)
  | text (cs : List Char)

/-- The value of digits after the mark of a base. -/
def radixValue? (cs : List Char) : Option Nat := do
  let (base, ds) ←
    match cs with
    | '0' :: 'x' :: ds => some (16, ds)
    | '0' :: 'o' :: ds => some (8, ds)
    | '0' :: 'b' :: ds => some (2, ds)
    | _ => none
  if ds.isEmpty then none
  else
    let values ← ds.mapM (Number.digitValue? base)
    return values.foldl (fun n d => base * n + d) 0

/-- The value of decimal digits, of which a zero may come first only alone. -/
def decimalValue? (cs : List Char) : Option Nat :=
  if cs.isEmpty || !cs.all Char.isDigit || (cs.head? = some '0' && cs ≠ ['0']) then none
  else some (Number.digitsValue cs)

/-- The natural number that a text spells, perhaps behind a plus. -/
def natural? (cs : List Char) : Option Nat :=
  let ds := if cs.head? = some '+' then cs.tail else cs
  (radixValue? ds).or (decimalValue? ds)

/-- The integer that a text spells. -/
def integer? : List Char → Option Int
  | '-' :: ds => ((radixValue? ds).or (decimalValue? ds)).map fun n => -(n : Int)
  | cs => (natural? cs).map Int.ofNat

/-- Whether a text is several digits with a zero first. -/
def isZeroPadded (cs : List Char) : Bool :=
  let ds := (Number.splitSign cs).2
  1 < ds.length && ds.head? = some '0' && ds.all Char.isDigit

/-- The double that a text spells. -/
def float? (cs : List Char) : Option Float :=
  let unsigned := if cs.head? = some '+' then cs.tail else cs
  let infinity := [".inf".toList, ".Inf".toList, ".INF".toList]
  if infinity.contains unsigned then some (1.0 / 0.0)
  else if (infinity.map ('-' :: ·)).contains cs then some (-1.0 / 0.0)
  else if [".nan".toList, ".NaN".toList, ".NAN".toList].contains cs then some (0.0 / 0.0)
  else if cs.head? = some '+' ∧ (unsigned.head? = some '+' ∨ unsigned.head? = some '-') then none
  else (Number.float? unsigned).filter Float.isFinite

/-- The spellings of null. -/
def nulls : List (List Char) := ["null".toList, "Null".toList, "NULL".toList, "~".toList]

/-- The truth value that a text spells. -/
def bool? (cs : List Char) : Option Bool :=
  if ["true".toList, "True".toList, "TRUE".toList].contains cs then some true
  else if ["false".toList, "False".toList, "FALSE".toList].contains cs then some false
  else none

/-- The integers that are kept as such; greater ones are doubles. -/
def fits (n : Int) : Bool := -(Nat.pow 2 127 : Nat) ≤ n && n < (Nat.pow 2 128 : Nat)

namespace Meaning

/-- What a plain scalar means. -/
def ofPlain (cs : List Char) : Meaning :=
  if cs.isEmpty || nulls.contains cs then .null
  else
    match bool? cs, (integer? cs).filter fits with
    | some b, _ => .bool b
    | none, some n => .integer n
    | none, none =>
      match if isZeroPadded cs then none else float? cs with
      | some x => .float x
      | none => .text cs

/-- The tag of a core type. -/
def coreTag (name : String) : List Char := "tag:yaml.org,2002:".toList ++ name.toList

/-- What a scalar means; none if its tag is not one of a core type, or one that the
text does not fit. -/
def ofScalar? (tag : Option (List Char)) (style : Style) (cs : List Char) : Option Meaning :=
  match tag with
  | none => some (if style = .plain then ofPlain cs else .text cs)
  | some t =>
    if t.head? = some '!' then none
    else if t = coreTag "bool" then (bool? cs).map .bool
    else if t = coreTag "int" then ((integer? cs).filter fits).map .integer
    else if t = coreTag "float" then (float? cs).map .float
    else if t = coreTag "null" then (if nulls.contains cs then some .null else none)
    else some (.text cs)

end Meaning

namespace Node

/-- The characters of a scalar, whatever it means. -/
def raw? : Node → Option (List Char)
  | .scalar _ _ cs => some cs
  | _ => none

/-- Whether a node stands for nothing: null in a plain scalar. -/
def isNull : Node → Bool
  | .scalar tag .plain cs =>
    if tag = some (Meaning.coreTag "null") then nulls.contains cs
    else cs.isEmpty || nulls.contains cs
  | _ => false

/-- The fields of a mapping under their names; a scalar that is left out has none. -/
def fields? : Node → Option (List (List Char × Node))
  | .mapping _ fields => fields.mapM fun f => (raw? f.1).map fun name => (name, f.2)
  | .scalar _ .plain [] => some []
  | _ => none

/-- Whether a collection may be taken for what it is: it has no tag of its own. -/
def isUntagged : Option (List Char) → Bool
  | some ('!' :: _) => false
  | _ => true

end Node

end Telemetry.Yaml
