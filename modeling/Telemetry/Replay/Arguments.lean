import Telemetry.Replay.Settings

/-!
# Arguments

The arguments of the program are options and nothing else. An option has a long
name and a letter; a value stands behind an equals sign, in the next argument or,
after a letter, right behind it. Letters of options without a value may be written
together. No option may be given twice. Variables of the environment stand in for
three of the options.
-/

namespace Telemetry.Replay

/-- The options. -/
inductive Flag where
  | definition
  | records
  | timeColumn
  | config
  | format
  | verbose
  | help
  | version
  deriving DecidableEq

namespace Flag

/-- Every option. -/
def all : List Flag := [definition, records, timeColumn, config, format, verbose, help, version]

/-- The long name of an option. -/
def long : Flag → String
  | definition => "definition"
  | records => "records"
  | timeColumn => "time-column"
  | config => "config"
  | format => "format"
  | verbose => "verbose"
  | help => "help"
  | version => "version"

/-- The letter of an option. -/
def letter : Flag → Char
  | definition => 'd'
  | records => 'r'
  | timeColumn => 't'
  | config => 'c'
  | format => 'f'
  | verbose => 'v'
  | help => 'h'
  | version => 'V'

/-- The option of a long name. -/
def ofLong? (name : List Char) : Option Flag := all.find? (·.long.toList == name)

/-- The option of a letter. -/
def ofLetter? (c : Char) : Option Flag := all.find? (·.letter == c)

/-- Whether an option has a value. -/
def hasValue : Flag → Bool
  | verbose | help | version => false
  | _ => true

/-- Whether a text can be the value of an option. -/
def admits (f : Flag) (value : List Char) : Bool :=
  match f with
  | definition | records | config => !value.isEmpty
  | format => (Format.ofName? value).isSome
  | _ => true

/-- The variable that stands in for an option. -/
def fallback? : Flag → Option String
  | definition => some "EXPR_REPLAY_DEFINITION"
  | records => some "EXPR_REPLAY_RECORDS"
  | config => some "EXPR_REPLAY_CONFIG"
  | _ => none

end Flag

/-- The options given so far with their values. -/
abbrev Given := List (Flag × List Char)

/-- What the arguments ask for. -/
structure Arguments where
  definition : String
  records : String
  timeColumn : Option String := none
  config : Option String := none
  format : Option Format := none

/-- What the program is to do. -/
inductive Request where
  | replay (a : Arguments)
  | help
  | version

namespace Given

/-- The value of an option. -/
def value? (g : Given) (f : Flag) : Option (List Char) := (g.find? (·.1 == f)).map (·.2)

/-- The options with one more, which is new and has a value that it can have. -/
def add? (g : Given) (f : Flag) (value : List Char) : Option Given :=
  if (g.value? f).isSome || !f.admits value then none else some ((f, value) :: g)

/-- Adds the value of the variable that stands in for an option. -/
def addVariable? (environment : List (String × String)) (f : Flag) (g : Given) : Option Given :=
  if (g.value? f).isSome then some g
  else
    match f.fallback?.bind fun name => environment.find? (·.1 == name) with
    | some v => g.add? f v.2.toList
    | none => some g

/-- The request of all options; two of them are needed. -/
def request? (environment : List (String × String)) (g : Given) : Option Request := do
  let g ← addVariable? environment .definition g
  let g ← addVariable? environment .records g
  let g ← addVariable? environment .config g
  let definition ← g.value? .definition
  let records ← g.value? .records
  return .replay
    { definition := String.ofList definition
      records := String.ofList records
      timeColumn := (g.value? .timeColumn).map String.ofList
      config := (g.value? .config).map String.ofList
      format := (g.value? .format).bind Format.ofName? }

end Given

namespace Request

/-- Whether an argument is an option rather than a value. -/
def isOption : List Char → Bool
  | '-' :: _ :: _ => true
  | _ => false

/-- An argument, understood. -/
inductive Reading where
  /-- The options after it. -/
  | given (g : Given)
  /-- An option whose value is the next argument. -/
  | awaits (g : Given) (f : Flag)
  /-- A request that does not wait for other arguments. -/
  | done (r : Request)

/-- An option without a value. -/
def plain? (g : Given) (f : Flag) : Option Reading :=
  match f with
  | .help => some (.done .help)
  | .version => some (.done .version)
  | f => (g.add? f []).map .given

/-- An option by its long name. -/
def long? (g : Given) (cs : List Char) : Option Reading := do
  let f ← Flag.ofLong? (cs.takeWhile (· != '='))
  match cs.dropWhile (· != '=') with
  | [] => if f.hasValue then some (.awaits g f) else plain? g f
  | _ :: value => if f.hasValue then (g.add? f value).map .given else none

/-- Options by their letters. -/
def letters? (g : Given) : List Char → Option Reading
  | [] => some (.given g)
  | c :: cs => do
    let f ← Flag.ofLetter? c
    if f.hasValue then
      match cs with
      | [] => some (.awaits g f)
      | '=' :: value => (g.add? f value).map .given
      | value => (g.add? f value).map .given
    else
      match ← plain? g f with
      | .given g => letters? g cs
      | r => some r

/-- The request that the arguments make after options; none if they are not in order. -/
def after? (environment : List (String × String)) : Given → List (List Char) → Option Request
  | g, [] => g.request? environment
  | g, arg :: args => do
    let reading ←
      match arg with
      | '-' :: '-' :: [] => if args.isEmpty then some (.given g) else none
      | '-' :: '-' :: cs => long? g cs
      | '-' :: c :: cs => letters? g (c :: cs)
      | _ => none
    match reading with
    | .given g => after? environment g args
    | .done r => some r
    | .awaits g f =>
      match args with
      | [] => none
      | value :: args =>
        if isOption value then none
        else do
          let g ← g.add? f value
          after? environment g args

/-- The request that the arguments of the program make. -/
def ofArguments? (environment : List (String × String)) (args : List String) : Option Request :=
  after? environment [] (args.map String.toList)

end Request

end Telemetry.Replay
