import Hostlink.Client
import Hostlink.CommandLine.Arguments
import Hostlink.Preferences

/-!
# The command line

A tool for those who write preferences pages: it calls a host that is kept in memory, and writes
and reads the URLs of requests.

* `Report` — an error with what caused it, and its text;
* `CommandLine.run` — what is printed for given arguments, and the exit code.
-/

namespace Hostlink.CommandLine

/-! ## Errors -/

/-- An error and what caused it, the nearest cause first. -/
structure Report where
  message : String
  causes : List String
  deriving DecidableEq, Repr

namespace Report

/-- A text whose first line begins with `first` and all others with `others`. -/
def indent (first others : String) (text : String) : String :=
  first ++ String.intercalate ("\n" ++ others)
    ((Text.splitWhere (· = '\n') text.toList).map String.ofList)

/-- A number in a column of five, a colon and a blank. -/
def numbered (n : Nat) : String :=
  let digits := toString n
  String.ofList (List.replicate (5 - digits.length) ' ') ++ digits ++ ": "

/-- The causes, which are numbered from `n` on. -/
def numberedCauses (n : Nat) : List String → List String
  | [] => []
  | cause :: rest => indent (numbered n) "       " cause :: numberedCauses (n + 1) rest

/-- The causes, which are numbered if there is more than one. -/
def causeTexts : List String → List String
  | [cause] => [indent "    " "    " cause]
  | causes => numberedCauses 0 causes

/-- The text of an error. -/
def text (r : Report) : String :=
  "Error: " ++ r.message ++ "\n" ++
    (if r.causes = [] then ""
    else "\nCaused by:\n" ++ String.join ((causeTexts r.causes).map (· ++ "\n")))

/-- A rejection as causes: what it wraps is a cause of its own. -/
def ofRejection (e : Rejection) : List String :=
  match e with
  | .encode cause => [e.message, cause.message]
  | _ => [e.message]

end Report

/-! ## What is printed -/

/-- What is printed, and the exit code. -/
structure Output where
  code : Nat
  stdout : String
  stderr : String
  deriving DecidableEq, Repr

namespace Output

/-- Success. -/
def ok (stdout stderr : String) : Output := ⟨0, stdout, stderr⟩

/-- Failure, with what has been printed before. -/
def failed (stderr : String) (r : Report) : Output := ⟨1, "", stderr ++ r.text⟩

/-- The arguments cannot be used. -/
def usage (e : UsageError) : Output := ⟨2, "", s!"error: {e.message}\n"⟩

end Output

/-! ## Set-up and arguments -/

/-- The set-up of a choice. A transport by script needs an encoding that names the request. -/
def Choice.config (c : Choice) (readFile : String → Option (List UInt8)) :
    Except Report Config := do
  let config := Config.load (c.configPath.bind readFile)
  let config : Config := match c.transport with
    | none => config
    | some t =>
      if t = Transport.scriptTag ∧ c.encoding = none then
        { config with transport := t, encoding := .jsonQuery }
      else { config with transport := t }
  let config : Config := match c.encoding with
    | none => config
    | some e => { config with encoding := e }
  match config.validate with
  | .ok _ => .ok config
  | .error e => .error ⟨"Invalid bridge options", [e.message]⟩

/-- The arguments of a request: an object or an array. -/
def requestArgs : Option String → Except Report Args
  | none => .ok .none
  | some raw =>
    match Json.parseText raw with
    | .error fault => .error ⟨"--args must be JSON", [fault.message]⟩
    | .ok (.object ms) => .ok (.ofJson (.object ms))
    | .ok (.array items) => .ok (.ofJson (.array items))
    | .ok _ => .error ⟨"--args must be a JSON object or array", []⟩

/-! ## Commands -/

/-- A page with a script of its own, and a host of preferences that knows the page. -/
def preferencesBridge (config : Config) : Except ConfigError (Bridge Preferences) :=
  let (_, page) := Document.new.addPageScript "main.js"
  Bridge.new config config.transport true page
    ⟨.routed, Preferences.routes, Preferences.initial, config.codec, true, []⟩

/-- Lines as a text. -/
def lines (ls : List String) : String := String.join (ls.map (· ++ "\n"))

/-- Calls a path. -/
def call (config : Config) (path : String) (args : Args) (timeout : Option Nat)
    (showTraffic : Bool) : Output :=
  match preferencesBridge config with
  | .error e => .failed "" ⟨e.message, []⟩
  | .ok b =>
    let b := { b with
      log := b.log.add (EventLog.line "CLI" s!"calling {path} over {config.transport.title}") }
    let (settled, c) := (Client.new b).request path args timeout
    let traffic := if showTraffic then lines c.bridge.log.lines else ""
    match settled with
    | some (.ok v) => .ok (v.renderPretty ++ "\n") traffic
    | some (.error e) =>
      .failed (lines [s!"[{e.severity.label}] {e.userMessage}"] ++ traffic)
        ⟨s!"{path} failed", Report.ofRejection e⟩
    | none => .failed traffic ⟨s!"{path} failed", ["no answer"]⟩

/-- A request that has been read, as an object. -/
def requestJson (r : Request) : Json :=
  Json.ofMembers [("path", .string r.path), ("args", r.args.toJson),
    ("callback", match r.callback with
      | some id => .string id
      | none => .null)]

/-- What a command prints under a set-up. -/
def Command.run (config : Config) : Command → Output
  | .call path args timeout showTraffic =>
    match requestArgs args with
    | .error r => .failed "" r
    | .ok args => CommandLine.call config path args timeout showTraffic
  | .encode path args id =>
    match requestArgs args with
    | .error r => .failed "" r
    | .ok args =>
      match config.codec.encode path args id with
      | .error e => .failed "" ⟨e.message, []⟩
      | .ok url => .ok (url ++ "\n") ""
  | .decode url =>
    match config.codec.decode url with
    | .error e => .failed "" ⟨e.message, []⟩
    | .ok r => .ok ((requestJson r).renderPretty ++ "\n") ""
  | .routes => .ok (lines Preferences.routes.paths) ""

/-- What is printed for given arguments. -/
def run (argv : List String) (readFile : String → Option (List UInt8)) : Output :=
  match Invocation.parse argv with
  | .error e => .usage e
  | .ok invocation =>
    match invocation.choice.config readFile with
    | .error r => .failed "" r
    | .ok config => invocation.command.run config

end Hostlink.CommandLine
