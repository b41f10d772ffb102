import Hostlink.Config

/-!
# Arguments of the command line

The command line names one command. Options that choose the set-up may stand before or after the
command; what stands after it counts more. An option is given once in each of the two places, with
its value behind `=` or as the next argument. After `--` nothing is an option.

* `scan` — splits arguments into options and words;
* `Invocation.parse` — the set-up options and the command.
-/

namespace Hostlink.CommandLine

/-- Why arguments are refused. -/
inductive UsageError where
  | unknownOption (name : String)
  | missingValue (name : String)
  | unexpectedValue (name : String)
  | repeatedOption (name : String)
  | invalidValue (name value : String)
  | unknownCommand (name : String)
  | missingCommand
  | missingWord (name : String)
  | unexpectedWord (word : String)
  deriving DecidableEq, Repr

/-- The wording of a refusal. -/
def UsageError.message : UsageError → String
  | .unknownOption name => s!"unexpected argument '{name}'"
  | .missingValue name => s!"a value is required for '--{name}'"
  | .unexpectedValue name => s!"no value is expected for '--{name}'"
  | .repeatedOption name => s!"'--{name}' cannot be used multiple times"
  | .invalidValue name value => s!"invalid value '{value}' for '--{name}'"
  | .unknownCommand name => s!"unrecognized subcommand '{name}'"
  | .missingCommand => "a subcommand is required"
  | .missingWord name => s!"the argument <{name}> is required"
  | .unexpectedWord word => s!"unexpected argument '{word}'"

/-! ## Options and words -/

/-- Options with their values, and words. -/
structure Scanned where
  options : List (String × String)
  words : List String
  /-- Arguments that have not been looked at. -/
  rest : List String

/-- Is this argument an option, or the mark behind which there are none? -/
def isOption (arg : String) : Bool := arg.toList.head? = some '-' && arg ≠ "-"

/-- The name of an option and the value behind `=`. -/
def splitOption (arg : String) : Option (String × Option String) :=
  match arg.toList with
  | '-' :: '-' :: name =>
    let value := name.dropWhile (· ≠ '=')
    some (String.ofList (name.takeWhile (· ≠ '=')),
      if value.isEmpty then none else some (String.ofList (value.drop 1)))
  | _ => none

/-- Splits arguments. `takes` says of each known option whether it takes a value; with `upToWord`
the first word ends the search. -/
def scan (takes : List (String × Bool)) (upToWord : Bool) (done : Scanned) :
    List String → Except UsageError Scanned
  | [] => .ok done
  | arg :: rest =>
    if arg = "--" then
      .ok { done with words := done.words ++ rest }
    else if ¬ isOption arg then
      if upToWord then .ok { done with rest := arg :: rest }
      else scan takes upToWord { done with words := done.words ++ [arg] } rest
    else
      match splitOption arg with
      | none => .error (.unknownOption arg)
      | some (name, value) =>
        match takes.lookup name with
        | none => .error (.unknownOption arg)
        | some takesValue =>
          if (done.options.lookup name).isSome then .error (.repeatedOption name)
          else
            let found := fun v => { done with options := done.options ++ [(name, v)] }
            match takesValue, value, rest with
            | false, none, rest => scan takes upToWord (found "") rest
            | false, some _, _ => .error (.unexpectedValue name)
            | true, some v, rest => scan takes upToWord (found v) rest
            | true, none, [] => .error (.missingValue name)
            | true, none, v :: rest =>
              if isOption v then .error (.missingValue name)
              else scan takes upToWord (found v) rest

/-! ## Values -/

/-- The value of a name in a table. -/
def chosen {α : Type} (table : List (String × α)) (s : Scanned) (name : String) :
    Except UsageError (Option α) :=
  match s.options.lookup name with
  | none => .ok none
  | some value =>
    match table.lookup value with
    | some a => .ok (some a)
    | none => .error (.invalidValue name value)

/-- A natural number of 64 bits, which may have a plus sign. -/
def natural? (value : String) : Option Nat :=
  let digits := match value.toList with
    | '+' :: rest => rest
    | cs => cs
  if digits ≠ [] ∧ digits.all Char.isDigit then
    let n := digits.foldl (fun n c => n * 10 + (c.toNat - 48)) 0
    if n < Nat.pow 2 64 then some n else none
  else none

/-- The number of an option. -/
def number (s : Scanned) (name : String) : Except UsageError (Option Nat) :=
  match s.options.lookup name with
  | none => .ok none
  | some value =>
    match natural? value with
    | some n => .ok (some n)
    | none => .error (.invalidValue name value)

/-- Options that choose the set-up. -/
structure Choice where
  configPath : Option String
  transport : Option Transport
  encoding : Option Encoding
  deriving DecidableEq, Repr

namespace Choice

/-- Names of the options, all with values. -/
def names : List (String × Bool) := [("config", true), ("transport", true), ("encoding", true)]

/-- The choice of options. -/
def ofScanned (s : Scanned) : Except UsageError Choice := do
  let path := s.options.lookup "config"
  if path = some "" then throw (.missingValue "config")
  let transport ← chosen [("script-tag", .scriptTag), ("fetch", .fetch)] s "transport"
  let encoding ← chosen
    [("b64-json", .b64Json), ("json-query", .jsonQuery), ("args-array", .argsArray)] s "encoding"
  pure ⟨path, transport, encoding⟩

/-- The second choice, where it says something, else the first. -/
def orElse (c d : Choice) : Choice :=
  ⟨d.configPath.or c.configPath, d.transport.or c.transport, d.encoding.or c.encoding⟩

end Choice

/-! ## Commands -/

/-- What is to be done. -/
inductive Command where
  /-- Calls a path on a host of preferences. -/
  | call (path : String) (args : Option String) (timeout : Option Nat) (showTraffic : Bool)
  /-- Writes the URL of a request. -/
  | encode (path : String) (args : Option String) (id : String)
  /-- Reads the URL of a request. -/
  | decode (url : String)
  /-- Lists the paths of the host. -/
  | routes
  deriving DecidableEq, Repr

namespace Command

/-- Options of a command besides those of the set-up. -/
def optionsOf : String → Option (List (String × Bool))
  | "call" => some [("args", true), ("timeout-ms", true), ("show-traffic", false)]
  | "encode" => some [("args", true), ("id", true)]
  | "decode" => some []
  | "routes" => some []
  | _ => none

/-- The only word of a command. -/
def onlyWord (name : String) : List String → Except UsageError String
  | [] => .error (.missingWord name)
  | [word] => .ok word
  | _ :: word :: _ => .error (.unexpectedWord word)

/-- The id of a request that is not named. -/
def defaultId : String := "__jp1"

/-- The command of a name with its options and words. -/
def ofScanned (name : String) (s : Scanned) : Except UsageError Command :=
  match name with
  | "call" => do
    let path ← onlyWord "PATH" s.words
    let timeout ← number s "timeout-ms"
    pure (.call path (s.options.lookup "args") timeout (s.options.lookup "show-traffic").isSome)
  | "encode" => do
    let path ← onlyWord "PATH" s.words
    pure (.encode path (s.options.lookup "args") ((s.options.lookup "id").getD defaultId))
  | "decode" => do
    let url ← onlyWord "URL" s.words
    pure (.decode url)
  | "routes" =>
    match s.words with
    | [] => .ok .routes
    | word :: _ => .error (.unexpectedWord word)
  | _ => .error (.unknownCommand name)

end Command

/-- A command and the choice of its set-up. -/
structure Invocation where
  choice : Choice
  command : Command
  deriving DecidableEq, Repr

/-- Reads the arguments. -/
def Invocation.parse (argv : List String) : Except UsageError Invocation := do
  let front ← scan Choice.names true ⟨[], [], []⟩ argv
  let before ← Choice.ofScanned front
  match front.words, front.rest with
  | word :: _, _ => throw (.unexpectedWord word)
  | [], [] => throw .missingCommand
  | [], name :: rest =>
    match Command.optionsOf name with
    | none => throw (.unknownCommand name)
    | some options => do
      let back ← scan (Choice.names ++ options) false ⟨[], [], []⟩ rest
      let after ← Choice.ofScanned back
      let command ← Command.ofScanned name back
      pure ⟨before.orElse after, command⟩

end Hostlink.CommandLine
