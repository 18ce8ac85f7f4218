import Telemetry.Yaml.Scalar

/-!
# YAML tokens

The tokens of a YAML text. Collections in blocks have no marks of their own: they
begin where the indentation grows or where a colon shows that a key has been read,
and end where the indentation shrinks. A key is therefore announced after the fact;
the place of a possible key is kept, one for each level of flow collections, until
the colon comes or cannot come any more.
-/

namespace Telemetry.Yaml

/-- How a scalar is written. -/
inductive Style where
  | plain
  | quoted
  | block
  deriving DecidableEq

/-- The marks and scalars of YAML. -/
inductive Token where
  /-- The version of YAML that a document asks for. -/
  | version (major minor : Nat)
  /-- A handle for tags and what it stands for. -/
  | handle (name text : List Char)
  | documentStart
  | documentEnd
  | blockSequence
  | blockMapping
  | blockEnd
  | openSequence
  | closeSequence
  | openMapping
  | closeMapping
  /-- A hyphen in front of an item. -/
  | item
  | comma
  | key
  | value
  | anchor (name : List Char)
  /-- A node with an anchor, once more. -/
  | again (name : List Char)
  | tag (handle suffix : List Char)
  | scalar (style : Style) (text : List Char)
  deriving DecidableEq

/-- Where a key may have begun. -/
structure Candidate where
  /-- The number of tokens in front of it. -/
  place : Nat
  line : Nat
  column : Nat
  offset : Nat
  /-- Whether nothing but a key can stand there. -/
  required : Bool

/-- How far a text has been read. -/
structure Scan where
  rest : List Char
  line : Nat := 0
  column : Nat := 0
  offset : Nat := 0
  /-- The column of the innermost block collection; -1 outside of all. -/
  indent : Int := -1
  outer : List Int := []
  /-- Whether a key may begin here. -/
  keyAllowed : Bool := true
  /-- The possible keys, innermost level first; the last level is that of blocks. -/
  keys : List (Option Candidate) := [none]
  /-- The tokens so far, last first. -/
  found : List Token := []

namespace Scan

/-- Whether the place is inside of a flow collection. -/
def inFlow (s : Scan) : Bool := 1 < s.keys.length

/-- Moves over one character. -/
def pass (s : Scan) (c : Char) : Scan :=
  if isBreak c then { s with line := s.line + 1, column := 0, offset := s.offset + 1 }
  else { s with column := s.column + 1, offset := s.offset + 1 }

/-- Moves to where `rest` is what is left. -/
def moveTo (s : Scan) (rest : List Char) : Scan :=
  { (s.rest.take (s.rest.length - rest.length)).foldl pass s with rest := rest }

/-- Adds a token. -/
def emit (s : Scan) (t : Token) : Scan := { s with found := t :: s.found }

/-- Puts a token behind the first `place` ones. -/
def emitAt (s : Scan) (place : Nat) (t : Token) : Scan :=
  let later := s.found.length - place
  { s with found := s.found.take later ++ t :: s.found.drop later }

/-- Moves over `n` characters and adds a token. -/
def take (s : Scan) (n : Nat) (t : Token) : Scan := (s.moveTo (s.rest.drop n)).emit t

/-- Says whether a key may begin here. -/
def allowKey (s : Scan) (b : Bool) : Scan := { s with keyAllowed := b }

/-! ## Possible keys -/

/-- Gives up the possible key of the innermost level, which may not be required. -/
def dropKey (s : Scan) : Option Scan :=
  match s.keys with
  | some k :: outer => if k.required then none else some { s with keys := none :: outer }
  | _ => some s

/-- Notes that a key may begin here. -/
def noteKey (s : Scan) : Option Scan :=
  if s.keyAllowed then do
    let required := !s.inFlow && s.indent == (s.column : Int)
    let s ← s.dropKey
    let here := Candidate.mk s.found.length s.line s.column s.offset required
    return { s with keys := some here :: s.keys.tail }
  else some s

/-- Gives up the possible keys that are on another line or too long. -/
def dropStale (s : Scan) : Option Scan := do
  let keys ← s.keys.mapM fun (k : Option Candidate) =>
    match k with
    | none => some none
    | some k =>
      if k.line < s.line ∨ k.offset + 1024 < s.offset then
        if k.required then none else some none
      else some (some k)
  return { s with keys := keys }

/-! ## Indentation -/

/-- Ends the block collections that are indented more than `column`. -/
def unrollIn : List Int → Int → Int → Scan → Scan
  | [], _, indent, s => { s with indent := indent, outer := [] }
  | o :: outer, column, indent, s =>
    if column < indent then unrollIn outer column o (s.emit .blockEnd)
    else { s with indent := indent, outer := o :: outer }

/-- Ends the block collections that lie further in than a column. -/
def unroll (s : Scan) (column : Int) : Scan :=
  if s.inFlow then s else unrollIn s.outer column s.indent s

/-- Begins a block collection at `column`, if that is further in; its token goes
behind the first `place` ones. -/
def roll (s : Scan) (column place : Nat) (t : Token) : Scan :=
  if !s.inFlow && s.indent < (column : Int) then
    { s with indent := column, outer := s.indent :: s.outer }.emitAt place t
  else s

/-! ## Between tokens -/

/-- Moves over blanks, comments and line breaks at the front of the text. A tab may
not stand where a key may begin in a block. -/
def skipGapIn (comment : Bool) (s : Scan) : List Char → Scan
  | [] => { s with rest := [] }
  | c :: cs =>
    if isBreak c then
      skipGapIn false (if s.inFlow then s.pass c else (s.pass c).allowKey true) cs
    else if comment || c = '#' then skipGapIn true (s.pass c) cs
    else if c = ' ' || (c = '\t' && (s.inFlow || !s.keyAllowed)) then skipGapIn false (s.pass c) cs
    else { s with rest := c :: cs }

/-- Moves over blanks, comments and line breaks. -/
def skipGap (s : Scan) : Scan := skipGapIn false s s.rest

/-! ## Tokens -/

/-- The characters of names. -/
def isNameChar (c : Char) : Bool := c.isAlphanum || c = '_' || c = '-'

/-- The name of an anchor, behind its mark. -/
def anchorName? (cs : List Char) : Option (List Char × List Char) :=
  let name := cs.takeWhile isNameChar
  let rest := cs.dropWhile isNameChar
  let ends := atGap rest || rest.head?.any (fun c => c ∈ "?:,]\x7d%@\x60".toList)
  if name.isEmpty || !ends then none else some (name, rest)

/-- The characters of the addresses of tags, without the ones that end them in a flow
collection. -/
def isAddressChar (c : Char) : Bool :=
  isNameChar c || c ∈ ";/?:@&=+$.!~*\x27()%".toList

/-- A tag behind its exclamation mark. -/
def tag? (flow : Bool) (cs : List Char) : Option (Token × List Char) := do
  let (t, rest) ←
    match cs with
    | '<' :: cs =>
      let inside (c : Char) : Bool := isAddressChar c || c = ',' || c = '[' || c = ']'
      let address := cs.takeWhile inside
      match cs.dropWhile inside with
      | '>' :: rest => if address.isEmpty then none else some (Token.tag [] address, rest)
      | _ => none
    | _ =>
      let name := cs.takeWhile isNameChar
      match cs.dropWhile isNameChar with
      | '!' :: rest =>
        let suffix := rest.takeWhile isAddressChar
        if suffix.isEmpty then none
        else some (.tag ('!' :: name ++ ['!']) suffix, rest.dropWhile isAddressChar)
      | _ =>
        let suffix := cs.takeWhile isAddressChar
        some
          (if suffix.isEmpty then .tag [] ['!'] else .tag ['!'] suffix, cs.dropWhile isAddressChar)
  if atGap rest || (flow && rest.head? = some ',') then some (t, rest) else none

/-- A directive behind its percent sign, with the end of its line. -/
def directive? (cs : List Char) : Option (Token × List Char) := do
  let name := cs.takeWhile isNameChar
  let rest := cs.dropWhile isNameChar
  let digits (cs : List Char) : Option (Nat × List Char) :=
    let ds := cs.takeWhile Char.isDigit
    if ds.isEmpty || 9 < ds.length then none
    else some (Nat.ofDigitChars 10 ds 0, cs.dropWhile Char.isDigit)
  let (t, rest) ←
    if !atGap rest then none
    else if name = "YAML".toList then do
      let (major, rest) ← digits (rest.dropWhile isBlank)
      match rest with
      | '.' :: rest =>
        let (minor, rest) ← digits rest
        some (Token.version major minor, rest)
      | _ => none
    else if name = "TAG".toList then
      match rest.dropWhile isBlank with
      | '!' :: cs =>
        let inner := cs.takeWhile isNameChar
        let (handle, rest) :=
          match cs.dropWhile isNameChar with
          | '!' :: rest => ('!' :: inner ++ ['!'], rest)
          | rest => ('!' :: inner, rest)
        let inside (c : Char) : Bool := isAddressChar c || c = ',' || c = '[' || c = ']'
        let start := rest.dropWhile isBlank
        let text := start.takeWhile inside
        let after := start.dropWhile inside
        if (handle ≠ ['!'] ∧ handle.getLast? ≠ some '!') || handle = ['!', '!'] && inner ≠ []
            || !rest.head?.any isBlank || text.isEmpty || !atGap after then none
        else some (.handle handle text, after)
      | _ => none
    else none
  return (t, ← lineEnd? rest)

/-- Adds a scalar that has been read. -/
def addScalar (s : Scan) (style : Style) (r : Read) : Scan :=
  let s := (s.moveTo r.rest).emit (.scalar style r.text)
  if r.broke then s.allowKey true else s

/-- Begins or ends a document. -/
def mark (s : Scan) (t : Token) : Option Scan := do
  let s ← (s.unroll (-1)).dropKey
  return (s.allowKey false).take 3 t

/-- Begins a flow collection. -/
def open? (s : Scan) (t : Token) : Option Scan := do
  let s ← s.noteKey
  return ({ s with keys := none :: s.keys }.allowKey true).take 1 t

/-- Ends a flow collection. -/
def close? (s : Scan) (t : Token) : Option Scan := do
  let s ← s.dropKey
  let s := if s.inFlow then { s with keys := s.keys.tail } else s
  return (s.allowKey false).take 1 t

/-- A hyphen or a question mark, which begin a collection in a block. -/
def entry? (s : Scan) (start t : Token) (allow : Bool) : Option Scan :=
  if !s.inFlow && !s.keyAllowed then none
  else do
    let s ← (s.roll s.column s.found.length start).dropKey
    return (s.allowKey allow).take 1 t

/-- A colon: what may be a key in front of it is one. -/
def colon? (s : Scan) : Option Scan :=
  match s.keys with
  | some k :: outer =>
    let s := (s.emitAt k.place .key).roll k.column k.place .blockMapping
    some (({ s with keys := none :: outer }.allowKey false).take 1 .value)
  | _ =>
    if !s.inFlow && !s.keyAllowed then none
    else
      let s := s.roll s.column s.found.length .blockMapping
      some ((s.allowKey (!s.inFlow)).take 1 .value)

/-- Whether a plain scalar begins with `c` in front of `cs`. -/
def startsPlain (flow : Bool) (c : Char) (cs : List Char) : Bool :=
  !(isGap c || c ∈ "-?:,[]\x7b\x7d#&*!|>\x27\"%@\x60".toList)
    || (c = '-' && !cs.head?.any isBlank)
    || (!flow && (c = '?' || c = ':') && !atGap cs)

/-- Reads the token that begins here. -/
def token? (s : Scan) : Option Scan :=
  match s.rest with
  | [] => some s
  | c :: cs =>
    let flow := s.inFlow
    if s.column = 0 ∧ c = '%' then do
      let s ← (s.unroll (-1)).dropKey
      let (t, rest) ← directive? cs
      return ((s.allowKey false).moveTo rest).emit t
    else if s.column = 0 ∧ atMarker s.rest then
      s.mark (if c = '-' then .documentStart else .documentEnd)
    else if c = '[' then s.open? .openSequence
    else if c = '{' then s.open? .openMapping
    else if c = ']' then s.close? .closeSequence
    else if c = '}' then s.close? .closeMapping
    else if c = ',' then do return ((← s.dropKey).allowKey true).take 1 .comma
    else if c = '-' && atGap cs then s.entry? .blockSequence .item true
    else if c = '?' && (flow || atGap cs) then s.entry? .blockMapping .key (!flow)
    else if c = ':' && (flow || atGap cs) then s.colon?
    else if c = '*' || c = '&' then do
      let s ← s.noteKey
      let (name, rest) ← anchorName? cs
      return ((s.allowKey false).moveTo rest).emit (if c = '*' then .again name else .anchor name)
    else if c = '!' then do
      let s ← s.noteKey
      let (t, rest) ← tag? flow cs
      return ((s.allowKey false).moveTo rest).emit t
    else if (c = '|' || c = '>') && !flow then do
      let s ← s.dropKey
      return (s.allowKey true).addScalar .block (← block? (c = '>') s.indent cs)
    else if c = '\x27' || c = '"' then do
      let s ← s.noteKey
      return (s.allowKey false).addScalar .quoted (← quoted? (c = '"') cs)
    else if startsPlain flow c cs then do
      let s ← s.noteKey
      return (s.allowKey false).addScalar .plain (← plain? flow (s.indent + 1) s.rest)
    else none

/-- Reads the rest of a text, at most `steps` tokens. -/
def run : Nat → Scan → Option Scan
  | 0, _ => none
  | steps + 1, s => do
    let s ← s.skipGap.dropStale
    let s := s.unroll s.column
    if s.rest.isEmpty then (s.unroll (-1)).dropKey else run steps (← s.token?)

end Scan

/-- A text with one kind of line break, as far as folding is concerned. -/
def unifyBreaks : List Char → List Char
  | '\r' :: '\n' :: cs => '\n' :: unifyBreaks cs
  | c :: cs => (if c = '\r' ∨ c = '\u0085' then '\n' else c) :: unifyBreaks cs
  | [] => []

/-- The characters that a text may hold. -/
def isAdmitted (c : Char) : Bool :=
  let n := c.toNat
  n = 9 || n = 10 || n = 13 || n = 0x85 || (0x20 ≤ n && n ≤ 0x7E) || (0xA0 ≤ n && n ≤ 0xFFFD)
    || 0x10000 ≤ n

/-- The tokens of a text. -/
def tokens? (cs : List Char) : Option (List Token) :=
  let cs := if cs.head? = some '\ufeff' then cs.tail else cs
  if cs.all isAdmitted then
    (Scan.run (cs.length + 1) { rest := unifyBreaks cs }).map (·.found.reverse)
  else none

example : tokens? "a: [b]\n".toList
    = some [.blockMapping, .key, .scalar .plain ['a'], .value, .openSequence,
        .scalar .plain ['b'], .closeSequence, .blockEnd] := by decide +kernel

end Telemetry.Yaml
