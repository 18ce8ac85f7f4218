import Telemetry.Replay.Setting
import Telemetry.Text.Blank
import Telemetry.Word

/-!
# Settings from variables of the environment

A variable whose name starts with the mark of the program is a setting. The rest
of its name, in small letters, is the name of the setting, with two underscores
between the names of a group and a setting in it. The text is a truth value, a
number, a character or text in quotes, a list in brackets, a group in braces, or
plain text; what has none of these forms as a whole is plain text, too.
-/

namespace Telemetry.Replay.Environment

/-- The front of the names of variables that are settings. -/
def marker : List Char := "expr_replay_".toList

/-- The names that a variable gives for groups and setting, if it is a setting. -/
def path? (name : List Char) : Option (List (List Char)) :=
  let name := Number.lowerLetters (Text.trim name)
  if marker.isPrefixOf name then
    let path := pieces (name.drop marker.length)
    match path.takeWhile (! ·.isEmpty) with
    | [] => none
    | names => some names
  else none
where
  /-- The pieces between points and pairs of underscores. -/
  pieces : List Char → List (List Char)
    | [] => [[]]
    | '_' :: '_' :: cs => [] :: pieces cs
    | c :: cs =>
      if c = '.' then [] :: pieces cs
      else
        match pieces cs with
        | first :: rest => (c :: first) :: rest
        | [] => [[c]]

/-- What is left after the spaces at the front. -/
def skip (cs : List Char) : List Char := cs.dropWhile Text.isSpace

/-- Whether a character ends plain text. -/
def isSeparator (c : Char) : Bool := c = ',' || c = '{' || c = '}' || c = '[' || c = ']'

/-- The setting that plain text says. -/
def plain (cs : List Char) : Setting :=
  let cs := Text.trim cs
  let decimal := if cs.contains '.' then Number.float? cs else none
  let (negative, ds) := Number.splitSign cs
  match decimal with
  | some x => .float x
  | none =>
    if ds.isEmpty || !ds.all Char.isDigit then .text cs
    else
      let n := Number.digitsValue ds
      if negative then (if n ≤ Word.halfCount then .integer (-n) else .text cs)
      else if n < Word.count then .integer n
      else .text cs

/-- The text behind an opening quote, with its escapes, and what follows it. -/
def quoted? : List Char → Option (List Char × List Char)
  | [] => none
  | '\\' :: c :: cs => do
    let x ←
      match c with
      | 'b' => some '\x08'
      | 't' => some '\t'
      | 'n' => some '\n'
      | 'f' => some '\x0c'
      | 'r' => some '\r'
      | '"' => some '"'
      | '\\' => some '\\'
      | _ => none
    let (text, rest) ← quoted? cs
    return (x :: text, rest)
  | c :: cs =>
    if c = '"' then some ([], cs)
    else do
      let (text, rest) ← quoted? cs
      return (c :: text, rest)

/-- The name of a field in braces. -/
def name? (cs : List Char) : Option (List Char × List Char) :=
  match cs with
  | '"' :: cs => quoted? cs
  | _ =>
    let isNameChar (c : Char) : Bool := c.isAlphanum || c = '_' || c = '-'
    let name := cs.takeWhile isNameChar
    if name.isEmpty then none else some (name, cs.dropWhile isNameChar)

mutual

/-- The setting at the front of a text and what follows it. -/
def setting? : Nat → List Char → Option (Setting × List Char)
  | 0, _ => none
  | fuel + 1, cs => do
    let cs := skip cs
    let (s, rest) ←
      if "true".toList.isPrefixOf cs then some (Setting.bool true, cs.drop 4)
      else if "false".toList.isPrefixOf cs then some (.bool false, cs.drop 5)
      else
        match cs with
        | '{' :: rest => do
          let (fields, rest) ← fields? fuel [] (skip rest)
          some (.group fields, rest)
        | '[' :: rest => do
          let (items, rest) ← items? fuel (skip rest)
          some (.list items, rest)
        | '"' :: rest => do
          let (text, rest) ← quoted? rest
          some (.text text, rest)
        | '\x27' :: c :: '\x27' :: rest => some (.text [c], rest)
        | '\x27' :: _ => none
        | _ => some (plain (cs.takeWhile (! isSeparator ·)), cs.dropWhile (! isSeparator ·))
    return (s, skip rest)

/-- The items of a list up to its end. -/
def items? : Nat → List Char → Option (List Setting × List Char)
  | 0, _ => none
  | fuel + 1, cs =>
    match cs with
    | ']' :: rest => some ([], rest)
    | _ => do
      let (s, rest) ← setting? fuel cs
      match rest with
      | ',' :: rest =>
        let (items, rest) ← items? fuel rest
        return (s :: items, rest)
      | ']' :: rest => return ([s], rest)
      | _ => none

/-- The fields of a group up to its end, after the ones read so far. -/
def fields? : Nat → Setting.Fields → List Char → Option (Setting.Fields × List Char)
  | 0, _, _ => none
  | fuel + 1, fields, cs =>
    match cs with
    | '}' :: rest => some (fields, rest)
    | _ => do
      let (name, rest) ← name? (skip cs)
      match skip rest with
      | '=' :: rest =>
        let (s, rest) ← setting? fuel rest
        let fields := Setting.put name s fields
        match rest with
        | ',' :: rest => fields? fuel fields rest
        | '}' :: rest => return (fields, rest)
        | _ => none
      | _ => none

end

/-- The setting that the text of a variable says. -/
def value (cs : List Char) : Setting :=
  match setting? (2 * cs.length + 1) cs with
  | some (s, []) => s
  | _ => .text cs

/-- A setting in the groups around it, outermost first. -/
def nest (s : Setting) : List (List Char) → Setting
  | [] => s
  | name :: names => .group [(name, nest s names)]

/-- The layer that variables say, each given with its text. -/
def layer (environment : List (String × String)) : Setting :=
  environment.foldl
    (fun below v =>
      match path? v.1.toList with
      | some names => below.overlay (nest (value v.2.toList) names)
      | none => below)
    (.group [])

end Telemetry.Replay.Environment
