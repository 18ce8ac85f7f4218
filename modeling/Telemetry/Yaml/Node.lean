import Telemetry.Yaml.Token

/-!
# YAML documents

The tree of a YAML text. A node is a scalar, a sequence or a mapping, and may have a
tag. A node with an anchor may be repeated by its name later on. Where a node is
left out there is an empty plain scalar. A text holds one document, or none if it
has no tokens.
-/

namespace Telemetry.Yaml

/-- A node of a document. -/
inductive Node where
  | scalar (tag : Option (List Char)) (style : Style) (text : List Char)
  | sequence (tag : Option (List Char)) (items : List Node)
  | mapping (tag : Option (List Char)) (fields : List (Node × Node))

namespace Node

/-- The node that is left out. -/
def absent : Node := .scalar none .plain []

/-- What is known while a document is read. -/
structure Context where
  /-- The handles of tags. -/
  handles : List (List Char × List Char)
  /-- The nodes with anchors, last first. -/
  anchors : List (List Char × Node) := []

/-- The handles that every document has. -/
def defaultHandles : List (List Char × List Char) :=
  [("!".toList, "!".toList), ("!!".toList, "tag:yaml.org,2002:".toList)]

/-- The full text of a tag. -/
def Context.tag? (c : Context) (handle suffix : List Char) : Option (List Char) :=
  if handle.isEmpty then some suffix
  else (c.handles.find? (·.1 == handle)).map (·.2 ++ suffix)

/-- Anchor and tag in front of a node, in either order. -/
structure Properties where
  anchor : Option (List Char) := none
  tag : Option (List Char) := none

/-- The properties at the front of tokens and what follows them. -/
def properties? (c : Context) : List Token → Option (Properties × List Token)
  | .anchor name :: .tag handle suffix :: ts => do
    return (⟨some name, some (← c.tag? handle suffix)⟩, ts)
  | .tag handle suffix :: .anchor name :: ts => do
    return (⟨some name, some (← c.tag? handle suffix)⟩, ts)
  | .anchor name :: ts => some (⟨some name, none⟩, ts)
  | .tag handle suffix :: ts => do return (⟨none, some (← c.tag? handle suffix)⟩, ts)
  | ts => some ({}, ts)

/-- Whether tokens go on with one of a list, or are over. -/
def startsWith (ends : List Token) (ts : List Token) : Bool :=
  match ts with
  | [] => true
  | t :: _ => ends.contains t

/-- A node read, the tokens behind it and what is known then. -/
abbrev Taken (α : Type) := α × List Token × Context

mutual

/-- The node at the front of tokens. `block` says that collections in blocks may stand
here, `loose` that the items of a sequence may stand here without one. -/
def read : Nat → Bool → Bool → Context → List Token → Option (Taken Node)
  | 0, _, _, _, _ => none
  | fuel + 1, block, loose, c, ts =>
    match ts with
    | .again name :: rest => do
      let (_, n) ← c.anchors.find? (·.1 == name)
      return (n, rest, c)
    | _ => do
      let (p, ts) ← properties? c ts
      let (n, rest, c) ←
        match ts with
        | .item :: _ =>
          if loose then do
            let (xs, rest, c) ← looseItems fuel c ts
            some (Node.sequence p.tag xs, rest, c)
          else if p.anchor.isSome || p.tag.isSome then some (.scalar p.tag .plain [], ts, c)
          else none
        | .scalar style text :: rest =>
          some (.scalar (if p.tag = some ['!'] then none else p.tag) style text, rest, c)
        | .openSequence :: rest => do
          let (xs, rest, c) ← flowItems fuel true c rest
          some (.sequence p.tag xs, rest, c)
        | .openMapping :: rest => do
          let (fs, rest, c) ← flowFields fuel true c rest
          some (.mapping p.tag fs, rest, c)
        | t :: rest =>
          if block && t == .blockSequence then do
            let (xs, rest, c) ← blockItems fuel c rest
            some (.sequence p.tag xs, rest, c)
          else if block && t == .blockMapping then do
            let (fs, rest, c) ← blockFields fuel c rest
            some (.mapping p.tag fs, rest, c)
          else if p.anchor.isSome || p.tag.isSome then some (.scalar p.tag .plain [], ts, c)
          else none
        | [] =>
          if p.anchor.isSome || p.tag.isSome then some (.scalar p.tag .plain [], [], c) else none
      let c :=
        match p.anchor with
        | some name => { c with anchors := (name, n) :: c.anchors }
        | none => c
      return (n, rest, c)

/-- A node, or the absent one where one of `ends` follows. -/
def readOr : Nat → List Token → Bool → Bool → Context → List Token → Option (Taken Node)
  | 0, _, _, _, _, _ => none
  | fuel + 1, ends, block, loose, c, ts =>
    if startsWith ends ts then some (absent, ts, c) else read fuel block loose c ts

/-- The items of a sequence in a block, up to its end. -/
def blockItems : Nat → Context → List Token → Option (Taken (List Node))
  | 0, _, _ => none
  | fuel + 1, c, ts =>
    match ts with
    | .item :: rest => do
      let (x, rest, c) ← readOr fuel [.item, .blockEnd] true false c rest
      let (xs, rest, c) ← blockItems fuel c rest
      return (x :: xs, rest, c)
    | .blockEnd :: rest => some ([], rest, c)
    | _ => none

/-- The items of a sequence that stands in a mapping without indentation. -/
def looseItems : Nat → Context → List Token → Option (Taken (List Node))
  | 0, _, _ => none
  | fuel + 1, c, ts =>
    match ts with
    | .item :: rest => do
      let (x, rest, c) ← readOr fuel [.item, .key, .value, .blockEnd] true false c rest
      let (xs, rest, c) ← looseItems fuel c rest
      return (x :: xs, rest, c)
    | _ => some ([], ts, c)

/-- The fields of a mapping in a block, up to its end. -/
def blockFields : Nat → Context → List Token → Option (Taken (List (Node × Node)))
  | 0, _, _ => none
  | fuel + 1, c, ts =>
    let ends := [Token.key, .value, .blockEnd]
    match ts with
    | .blockEnd :: rest => some ([], rest, c)
    | .key :: rest => do
      let (k, rest, c) ← readOr fuel ends true true c rest
      let (v, rest, c) ←
        match rest with
        | .value :: rest => readOr fuel ends true true c rest
        | _ => some (absent, rest, c)
      let (fs, rest, c) ← blockFields fuel c rest
      return ((k, v) :: fs, rest, c)
    | _ => none

/-- The items of a sequence in flow style, up to its end. An item may be a mapping of one
field without braces. -/
def flowItems : Nat → Bool → Context → List Token → Option (Taken (List Node))
  | 0, _, _, _ => none
  | fuel + 1, first, c, ts =>
    match ts with
    | .closeSequence :: rest => some ([], rest, c)
    | _ => do
      let ts ←
        match first, ts with
        | true, ts => some ts
        | false, .comma :: rest => some rest
        | false, _ => none
      match ts with
      | .closeSequence :: rest => some ([], rest, c)
      | .key :: rest => do
        let ends := [Token.comma, .closeSequence]
        let (k, rest, c) ←
          if startsWith (.value :: ends) rest then some (absent, rest.tail, c)
          else read fuel false false c rest
        let (v, rest, c) ←
          match rest with
          | .value :: rest => readOr fuel ends false false c rest
          | _ => some (absent, rest, c)
        let (xs, rest, c) ← flowItems fuel false c rest
        return (.mapping none [(k, v)] :: xs, rest, c)
      | _ => do
        let (x, rest, c) ← read fuel false false c ts
        let (xs, rest, c) ← flowItems fuel false c rest
        return (x :: xs, rest, c)

/-- The fields of a mapping in flow style, up to its end. -/
def flowFields : Nat → Bool → Context → List Token → Option (Taken (List (Node × Node)))
  | 0, _, _, _ => none
  | fuel + 1, first, c, ts =>
    match ts with
    | .closeMapping :: rest => some ([], rest, c)
    | _ => do
      let ts ←
        match first, ts with
        | true, ts => some ts
        | false, .comma :: rest => some rest
        | false, _ => none
      let ends := [Token.comma, .closeMapping]
      match ts with
      | .closeMapping :: rest => some ([], rest, c)
      | .key :: rest => do
        let (k, rest, c) ← readOr fuel (.value :: ends) false false c rest
        let (v, rest, c) ←
          match rest with
          | .value :: rest => readOr fuel ends false false c rest
          | _ => some (absent, rest, c)
        let (fs, rest, c) ← flowFields fuel false c rest
        return ((k, v) :: fs, rest, c)
      | _ => do
        let (k, rest, c) ← read fuel false false c ts
        let (fs, rest, c) ← flowFields fuel false c rest
        return ((k, absent) :: fs, rest, c)

end

/-- The directives in front of a document: at most one version, which is 1.1 or 1.2,
and handles of different names. -/
def directives? : Bool → List (List Char × List Char) → List Token →
    Option (List (List Char × List Char) × List Token)
  | versioned, handles, .version major minor :: ts =>
    if versioned || major != 1 || (minor != 1 && minor != 2) then none
    else directives? true handles ts
  | versioned, handles, .handle name text :: ts =>
    if handles.any (·.1 == name) then none else directives? versioned ((name, text) :: handles) ts
  | _, handles, ts => some (handles, ts)

/-- Whether a token stands between documents. -/
def isBetween : Token → Bool
  | .version .. | .handle .. | .documentStart | .documentEnd => true
  | _ => false

/-- The document that tokens are. Of any three steps one takes a token. -/
def document? (ts : List Token) : Option (Option Node) := do
  let fuel := 3 * ts.length + 3
  match ts with
  | [] => some none
  | t :: rest =>
    let (n, rest) ←
      if isBetween t && t != .documentEnd then do
        let (handles, ts) ← directives? false [] ts
        match ts with
        | .documentStart :: ts =>
          if ts.head?.all isBetween then some (absent, ts)
          else
            let (n, rest, _) ← read fuel true false ⟨handles ++ defaultHandles, []⟩ ts
            some (n, rest)
        | _ => none
      else do
        let (n, rest, _) ← read fuel true false ⟨defaultHandles, []⟩ (t :: rest)
        some (n, rest)
    if rest.all (· == .documentEnd) then some (some n) else none

/-- The document that a text is; nothing for a text without tokens. -/
def ofText? (cs : List Char) : Option (Option Node) := do document? (← tokens? cs)

end Node

end Telemetry.Yaml
