import Telemetry.Operator.Rule
import Telemetry.Text.Case

/-!
# Text functions

Joining, cutting, searching and comparing. Operands that are no texts are taken
by their text. Positions start at one and count characters; a count below zero
is taken for zero, except that `Mid` reads a negative length as no limit.
-/

namespace Telemetry

/-- The text functions. -/
inductive Textual where
  | concat
  | length
  | left
  | right
  | middle
  | upperCase
  | lowerCase
  | trim
  | position
  | replace
  | order
  deriving DecidableEq

namespace Textual

/-- Every text function. -/
def all : List Textual :=
  [concat, length, left, right, middle, upperCase, lowerCase, trim, position, replace, order]

/-- The list misses no function. -/
theorem mem_all (op : Textual) : op ∈ all := by cases op <;> decide

/-- The name of a function. -/
def name : Textual → String
  | concat => "Concat"
  | length => "Len"
  | left => "Left"
  | right => "Right"
  | middle => "Mid"
  | upperCase => "UCase"
  | lowerCase => "LCase"
  | trim => "Trim"
  | position => "InStr"
  | replace => "Replace"
  | order => "StrComp"

/-- The number of operands that a function declares. -/
def arity : Textual → Nat
  | length | upperCase | lowerCase | trim => 1
  | middle | replace | order => 3
  | _ => 2

/-- A text value from characters. -/
def ofChars (cs : List Char) : Value := .text (String.ofList cs)

/-- A count, which is not below zero. -/
def count (n : Int64) : Nat := n.toInt.toNat

/-- The characters of `s` from position `start` on, `length` of them. -/
def slice (s : List Char) (start length : Int64) : List Char :=
  let tail := s.drop (count (Word.subSaturating start 1))
  if length < 0 then tail else tail.take (count length)

/-- The position of the first occurrence, or zero. -/
def occurrence (s t : List Char) : Int64 :=
  match Text.position? t s with
  | some n => Int64.ofNat (n + 1)
  | none => 0

/-- Minus one, zero or one, like an order. -/
def orderSign : Ordering → Int64
  | .lt => -1
  | .eq => 0
  | .gt => 1

/-- The rule of a function. -/
def rule (op : Textual) : Rule :=
  let function := op.name
  match op with
  | concat => .two fun a b => .ok (ofChars (a.chars ++ b.chars))
  | length => .one fun a => .ok (.int (Int64.ofNat a.chars.length))
  | left => .two fun a n => (n.toWord function).map fun n => ofChars (a.chars.take (count n))
  | right =>
    .two fun a n =>
      (n.toWord function).map fun n => ofChars (a.chars.drop (a.chars.length - count n))
  | middle =>
    .three fun a start length => do
      let start ← start.toWord function
      let length ← length.toWord function
      return ofChars (slice a.chars start length)
  | upperCase => .one fun a => .ok (ofChars (Text.upper a.chars))
  | lowerCase => .one fun a => .ok (ofChars (Text.lower a.chars))
  | trim => .one fun a => .ok (ofChars (Text.trim a.chars))
  | position => .two fun a b => .ok (.int (occurrence a.chars b.chars))
  | replace =>
    .three fun a old new =>
      .ok (ofChars
        (if old.chars.isEmpty then a.chars else Text.replaceAll old.chars new.chars a.chars))
  | order =>
    .three fun a b mode =>
      (mode.toWord function).map fun mode =>
        .int (orderSign
          (if mode = 0 then Text.order a.chars b.chars
          else Text.order (Text.lower a.chars) (Text.lower b.chars)))

/-- A function takes as many operands as it declares. -/
theorem takes_rule (op : Textual) : op.rule.takes = op.arity := by cases op <;> rfl

end Textual

end Telemetry
