/-!
# Rows of CSV

The rows of a comma-separated text. A field that starts with a quote runs to the
next quote that is not doubled; what stands between it and the comma still belongs
to the field. A row ends with a line feed or a carriage return, and empty lines
are no rows. A row knows where it was looked for, empty lines in front of it
included.
-/

namespace Telemetry.Csv

/-- A place in a text. -/
structure Position where
  line : Nat := 1
  byte : Nat := 0

/-- The fields of a row and where the search for it began. -/
structure Row where
  fields : List (List Char)
  position : Position

/-- Whether a character ends a row. -/
def endsRow (c : Char) : Bool := c = '\n' || c = '\r'

/-- Whether a character ends a field without quotes. -/
def endsField (c : Char) : Bool := c = ',' || endsRow c

/-- A field without quotes and what follows it. -/
def bareField (cs : List Char) : List Char × List Char :=
  (cs.takeWhile (! endsField ·), cs.dropWhile (! endsField ·))

/-- A field behind its opening quote and what follows it. -/
def quotedField : List Char → List Char × List Char
  | [] => ([], [])
  | '"' :: '"' :: cs =>
    let tail := quotedField cs
    ('"' :: tail.1, tail.2)
  | c :: cs =>
    if c = '"' then bareField cs
    else
      let tail := quotedField cs
      (c :: tail.1, tail.2)

/-- The field at the front of a text and what follows it. -/
def field : List Char → List Char × List Char
  | '"' :: cs => quotedField cs
  | cs => bareField cs

/-- What follows a field is no longer than the text. -/
theorem length_bareField (cs : List Char) : (bareField cs).2.length ≤ cs.length :=
  (List.dropWhile_sublist _).length_le

/-- What follows a field in quotes is no longer than the text. -/
theorem length_quotedField (cs : List Char) : (quotedField cs).2.length ≤ cs.length := by
  fun_induction quotedField cs with
  | case1 => exact Nat.le_refl _
  | case2 cs tail ih => exact Nat.le_succ_of_le (Nat.le_succ_of_le ih)
  | case3 cs => exact Nat.le_succ_of_le (length_bareField cs)
  | case4 c cs _ _ tail ih => exact Nat.le_succ_of_le ih

/-- What follows any field is no longer than the text. -/
theorem length_field (cs : List Char) : (field cs).2.length ≤ cs.length := by
  unfold field
  split
  · exact Nat.le_succ_of_le (length_quotedField _)
  · exact length_bareField _

/-- The fields up to the end of a row, and what follows its last character. -/
def fields (cs : List Char) : List (List Char) × List Char :=
  let first := field cs
  match _h : first.2 with
  | [] => ([first.1], [])
  | c :: rest =>
    if c = ',' then
      let others := fields rest
      (first.1 :: others.1, others.2)
    else ([first.1], rest)
termination_by cs.length
decreasing_by
  have := length_field cs
  rw [_h, List.length_cons] at this
  omega

/-- The size of characters in bytes. -/
def byteSize : List Char → Nat
  | [] => 0
  | c :: cs => c.utf8Size + byteSize cs

/-- The place after characters. -/
def Position.after (p : Position) (cs : List Char) : Position :=
  ⟨p.line + cs.count '\n', p.byte + byteSize cs⟩

/-- The rows of a text, at most `limit` of them. -/
def rowsFrom : Nat → Position → List Char → List Row
  | 0, _, _ => []
  | limit + 1, p, cs =>
    let start := cs.dropWhile endsRow
    if start.isEmpty then []
    else
      let (fs, rest) := fields start
      ⟨fs, p⟩ :: rowsFrom limit (p.after (cs.take (cs.length - rest.length))) rest

/-- The rows of a text. A mark of the byte order at its front does not belong to the
first field. Every row takes a character at least. -/
def rows : List Char → List Row
  | '\ufeff' :: cs => rowsFrom cs.length (Position.after {} ['\ufeff']) cs
  | cs => rowsFrom cs.length {} cs

example : ((rows "a, b\r\n\n\"c,\"\"d\"x,\n".toList).map Row.fields)
    = [["a".toList, " b".toList], ["c,\"dx".toList, []]] := by decide +kernel

end Telemetry.Csv
