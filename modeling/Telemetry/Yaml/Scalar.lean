import Telemetry.Number.Integer

/-!
# Scalars in YAML

The written forms of one scalar: plain, between quotes, or as a block of lines. All
of them may run over several lines. Outside blocks a single line break becomes a
space and further ones stay, which is called folding; blanks around breaks do not
count. Every reader takes what follows the mark that told the form, and gives the
text of the scalar and the rest. Line breaks of every kind have been replaced by
line feeds before, but for the two separators of Unicode, which are not folded.
-/

namespace Telemetry.Yaml

/-- Whether a character ends a line. -/
def isBreak (c : Char) : Bool := c = '\n' || c = '\u2028' || c = '\u2029'

/-- Whether a character is a blank within a line. -/
def isBlank (c : Char) : Bool := c = ' ' || c = '\t'

/-- Whether a character stands between parts of a scalar. -/
def isGap (c : Char) : Bool := isBlank c || isBreak c

/-- Whether a text starts with a gap or is over. -/
def atGap (cs : List Char) : Bool := cs.head?.all isGap

/-- Whether a line starts with one of the marks between documents. -/
def atMarker : List Char → Bool
  | a :: b :: c :: rest =>
    ((a = '-' && b = '-' && c = '-') || (a = '.' && b = '.' && c = '.')) && atGap rest
  | _ => false

/-- Line breaks, folded. -/
def foldBreaks : List Char → List Char
  | '\n' :: [] => [' ']
  | '\n' :: more => more
  | breaks => breaks

/-- What a gap between two parts of a scalar becomes. -/
def foldGap (gap : List Char) : List Char :=
  if gap.any isBreak then foldBreaks (gap.filter isBreak) else gap

/-- The number of characters behind the last line break. -/
def columnAfter (gap : List Char) : Nat := (gap.reverse.takeWhile (! isBreak ·)).length

/-! ## Plain scalars -/

/-- The characters that end a plain scalar in a flow collection. -/
def isFlowMark (c : Char) : Bool := c = ',' || c = '[' || c = ']' || c = '{' || c = '}'

/-- One part of a plain scalar, without gaps. In a flow collection a colon may not
stand right in front of a mark. -/
def plainPart (flow : Bool) : List Char → Option (List Char × List Char)
  | [] => some ([], [])
  | c :: cs =>
    if isGap c || (flow && isFlowMark c) then some ([], c :: cs)
    else if c = ':' && flow && cs.head?.any (fun d => isFlowMark d || d = '?') then none
    else if c = ':' && atGap cs then some ([], c :: cs)
    else (plainPart flow cs).map fun (part, rest) => (c :: part, rest)

/-- A scalar that has been read. -/
structure Read where
  text : List Char
  rest : List Char
  /-- Whether a line break was taken behind the scalar. -/
  broke : Bool := false

/-- Whether a tab stands behind a line break and in front of the indentation. -/
def tabsIn (indent : Int) : Option Nat → List Char → Bool
  | _, [] => false
  | column, c :: cs =>
    if isBreak c then tabsIn indent (some 0) cs
    else
      column.any (fun n => c = '\t' && (n : Int) < indent)
        || tabsIn indent (column.map (· + 1)) cs

/-- A plain scalar, in at most `parts` parts. It goes on behind a gap unless the next
line has less than the indentation, is a comment or is a mark between documents. -/
def plainIn (flow : Bool) (indent : Int) : Nat → List Char → Option Read
  | 0, cs => some ⟨[], cs, false⟩
  | parts + 1, cs => do
    let (part, rest) ← plainPart flow cs
    let gap := rest.takeWhile isGap
    let after := rest.dropWhile isGap
    let broken := gap.any isBreak
    if gap.isEmpty then some ⟨part, rest, false⟩
    else if tabsIn indent none gap then none
    else if broken ∧ !flow ∧ (columnAfter gap : Int) < indent then some ⟨part, after, true⟩
    else if after.head? = some '#' ∨ (broken ∧ columnAfter gap = 0 ∧ atMarker after) then
      some ⟨part, after, broken⟩
    else
      let more ← plainIn flow indent parts after
      if more.text.isEmpty then some ⟨part, after, broken⟩
      else some { more with text := part ++ foldGap gap ++ more.text }

/-- A plain scalar at the front of a text. -/
def plain? (flow : Bool) (indent : Int) (cs : List Char) : Option Read :=
  plainIn flow indent (cs.length + 1) cs

/-! ## Scalars between quotes -/

/-- One part of a scalar between quotes. -/
structure Part where
  text : List Char
  rest : List Char
  /-- Whether the part ends with an escaped line break. -/
  escaped : Bool := false

/-- A part with a character more in front. -/
def Part.prepend (c : Char) (p : Part) : Part := { p with text := c :: p.text }

/-- A part between single quotes, where a doubled quote stands for one. -/
def singlePart : List Char → Part
  | '\x27' :: '\x27' :: cs => (singlePart cs).prepend '\x27'
  | c :: cs => if c = '\x27' || isGap c then ⟨[], c :: cs, false⟩ else (singlePart cs).prepend c
  | [] => ⟨[], [], false⟩

/-- The characters that stand for another one behind a backslash. -/
def escapes : List (Char × Char) :=
  [('0', '\x00'), ('a', '\x07'), ('b', '\x08'), ('t', '\t'), ('\t', '\t'), ('n', '\n'),
   ('v', '\x0b'), ('f', '\x0c'), ('r', '\r'), ('e', '\x1b'), (' ', ' '), ('"', '"'), ('/', '/'),
   ('\\', '\\'), ('N', '\u0085'), ('_', '\u00a0'), ('L', '\u2028'), ('P', '\u2029')]

/-- The number of hexadecimal digits behind an escape. -/
def escapeLength? : Char → Option Nat
  | 'x' => some 2
  | 'u' => some 4
  | 'U' => some 8
  | _ => none

/-- The character with the code that hexadecimal digits spell. -/
def charOfHex? (ds : List Char) : Option Char := do
  let values ← ds.mapM (Number.digitValue? 16)
  let n := values.foldl (fun n d => 16 * n + d) 0
  if n.isValidChar then some (Char.ofNat n) else none

/-- A part between double quotes, where a backslash starts an escape; at most
`limit` characters. -/
def doublePart : Nat → List Char → Option Part
  | _, [] => some ⟨[], [], false⟩
  | 0, cs => some ⟨[], cs, false⟩
  | limit + 1, c :: cs =>
    if c = '"' || isGap c then some ⟨[], c :: cs, false⟩
    else if c = '\\' then
      match cs with
      | [] => none
      | d :: ds =>
        if isBreak d then some ⟨[], ds, true⟩
        else
          match escapeLength? d with
          | some n =>
            if ds.length < n then none
            else do
              let x ← charOfHex? (ds.take n)
              return (← doublePart limit (ds.drop n)).prepend x
          | none => do
            let (_, x) ← escapes.find? (·.1 == d)
            return (← doublePart limit ds).prepend x
    else (doublePart limit cs).map (·.prepend c)

/-- A scalar between quotes, in at most `parts` parts. `lineStart` says that the text
starts a line, which may then not be a mark between documents. -/
def quotedIn (double lineStart : Bool) : Nat → List Char → Option Read
  | 0, _ => none
  | parts + 1, cs =>
    if (lineStart && atMarker cs) || cs.isEmpty then none
    else do
      let part ← if double then doublePart cs.length cs else some (singlePart cs)
      match part.rest with
      | [] => none
      | c :: rest =>
        if c = (if double then '"' else '\x27') then some ⟨part.text, rest, false⟩
        else
          let gap := part.rest.takeWhile isGap
          let broken := part.escaped || gap.any isBreak
          let joint := if part.escaped then gap.filter isBreak else foldGap gap
          let more ← quotedIn double (broken && columnAfter gap == 0) parts
            (part.rest.dropWhile isGap)
          some { more with text := part.text ++ joint ++ more.text }

/-- A scalar behind its opening quote. -/
def quoted? (double : Bool) (cs : List Char) : Option Read :=
  quotedIn double false (cs.length + 1) cs

/-! ## Blocks -/

/-- What becomes of the line breaks at the end of a block. -/
inductive Chomp where
  | strip
  | clip
  | keep
  deriving DecidableEq

/-- Sign and digit behind the mark of a block, in either order: how it ends, and the
indentation of its lines, zero if that is to be found out. -/
def blockHead? (cs : List Char) : Option (Chomp × Nat × List Char) :=
  let sign (cs : List Char) : Option (Chomp × List Char) :=
    match cs with
    | '+' :: rest => some (.keep, rest)
    | '-' :: rest => some (.strip, rest)
    | _ => none
  let digit (cs : List Char) : Option (Nat × List Char) :=
    match cs with
    | c :: rest => if c.isDigit then some (c.toNat - 48, rest) else none
    | [] => none
  let refuseZero (chomp : Chomp) (n : Option (Nat × List Char)) (rest : List Char) :
      Option (Chomp × Nat × List Char) :=
    match n with
    | some (0, _) => none
    | some (n, rest) => some (chomp, n, rest)
    | none => some (chomp, 0, rest)
  match sign cs with
  | some (chomp, rest) => refuseZero chomp (digit rest) rest
  | none => do
    let (_, n, rest) ← refuseZero .clip (digit cs) cs
    match if n = 0 then none else sign rest with
    | some (chomp, rest) => return (chomp, n, rest)
    | none => return (.clip, n, rest)

/-- The rest of a line that holds blanks and a comment at most. -/
def lineEnd? (cs : List Char) : Option (List Char) :=
  let rest := cs.dropWhile isBlank
  let rest := if rest.head? = some '#' then rest.dropWhile (! isBreak ·) else rest
  match rest with
  | [] => some []
  | c :: rest => if isBreak c then some rest else none

/-- Empty lines of a block and the indentation of the line behind them. -/
structure Margin where
  breaks : List Char
  /-- The greatest column that was reached. -/
  widest : Nat
  column : Nat
  rest : List Char

/-- Takes empty lines and indentation. A tab may not stand in the indentation; an
indentation of zero is not known yet. -/
def margin? (indent : Nat) : Nat → List Char → Option Margin
  | column, [] => some ⟨[], column, column, []⟩
  | column, c :: cs =>
    let inside := indent = 0 || column < indent
    if inside && c = ' ' then margin? indent (column + 1) cs
    else if inside && c = '\t' then none
    else if isBreak c then
      (margin? indent 0 cs).map fun m =>
        { m with breaks := c :: m.breaks, widest := max column m.widest }
    else some ⟨[], column, column, c :: cs⟩

/-- The lines of a block after a margin. `lead` is the line break in front of the
margin, and `blank` says whether the line before started with a blank. -/
def blockLines (folded : Bool) (chomp : Chomp) (indent : Nat) :
    Nat → Margin → List Char → Bool → Option (List Char × List Char)
  | 0, _, _, _ => none
  | lines + 1, m, lead, blank =>
    if m.column = indent ∧ !m.rest.isEmpty then do
      let startsBlank := m.rest.head?.any isBlank
      let joint :=
        if folded && lead == ['\n'] && !blank && !startsBlank then
          (if m.breaks.isEmpty then [' '] else m.breaks)
        else lead ++ m.breaks
      let line := m.rest.takeWhile (! isBreak ·)
      let after := m.rest.dropWhile (! isBreak ·)
      let (text, rest) ←
        blockLines folded chomp indent lines (← margin? indent 0 after.tail) (after.take 1)
          startsBlank
      return (joint ++ line ++ text, rest)
    else
      let tail :=
        match chomp with
        | .strip => []
        | .clip => lead
        | .keep => lead ++ m.breaks
      some (tail, m.rest)

/-- A block behind its mark. Without a digit its indentation is that of its first line,
but more than that of the collection around it. -/
def block? (folded : Bool) (parent : Int) (cs : List Char) : Option Read := do
  let (chomp, digit, cs) ← blockHead? cs
  let cs ← lineEnd? cs
  let given := if digit = 0 then 0 else (if 0 ≤ parent then parent.toNat + digit else digit)
  let m ← margin? given 0 cs
  let indent := if given = 0 then max m.widest (max (parent + 1).toNat 1) else given
  let (text, rest) ← blockLines folded chomp indent (cs.length + 1) m [] false
  return ⟨text, rest, false⟩

example : (plain? false 1 "a b\n  c: d".toList).map (fun r => (r.text, r.rest))
    = some ("a b c".toList, ": d".toList) := by decide +kernel

example : (quoted? true "a\\u00e9 \n b\" x".toList).map (·.text) = some "aé b".toList := by
  decide +kernel

example : (block? true 0 "\n  a\n  b\n\n  c\nd".toList).map (fun r => (r.text, r.rest))
    = some ("a b\nc\n".toList, ['d']) := by decide +kernel

end Telemetry.Yaml
