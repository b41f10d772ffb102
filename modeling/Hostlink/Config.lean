import Hostlink.Json.Format

/-!
# How a bridge is set up

* `Transport`, `Encoding`, `PushTiming` — the strategies to choose from;
* `Config` — the choice, with its limits and names, and its form in JSON;
* `Config.validate` — what is refused;
* `Config.load` — the choice that a file makes, or the default one.
-/

namespace Hostlink

open Json (Format Record Field Members)

/-- How a request reaches the host. -/
inductive Transport where
  /-- A script element whose source is the request; the host calls back. -/
  | scriptTag
  /-- A fetch, whose body is the reply. -/
  | fetch
  deriving DecidableEq, Repr

namespace Transport

/-- Its name in a file. -/
def name : Transport → String
  | .scriptTag => "scriptTag"
  | .fetch => "fetch"

/-- Its name in a message. -/
def title : Transport → String
  | .scriptTag => "ScriptTag"
  | .fetch => "Fetch"

/-- The transport of a name, or of an object with only that name. -/
def format : Format Transport :=
  Format.choice [("scriptTag", .scriptTag), ("fetch", .fetch)]

end Transport

/-- How arguments are laid out in a request. -/
inductive Encoding where
  /-- A query of `key=value` pairs; a value that is no text goes as base64 of its JSON. -/
  | b64Json
  /-- One JSON object with all arguments and the request's name. -/
  | jsonQuery
  /-- One JSON array of the values. -/
  | argsArray
  deriving DecidableEq, Repr

namespace Encoding

/-- Its name in a file. -/
def name : Encoding → String
  | .b64Json => "b64Json"
  | .jsonQuery => "jsonQuery"
  | .argsArray => "argsArray"

/-- Its name in a message. -/
def title : Encoding → String
  | .b64Json => "B64Json"
  | .jsonQuery => "JsonQuery"
  | .argsArray => "ArgsArray"

/-- The encoding of a name, or of an object with only that name. -/
def format : Format Encoding :=
  Format.choice [("b64Json", .b64Json), ("jsonQuery", .jsonQuery), ("argsArray", .argsArray)]

end Encoding

/-- When a push settles the handler that waits for it. -/
inductive PushTiming where
  | immediate
  /-- One tick after it came. -/
  | nextTick
  deriving DecidableEq, Repr

namespace PushTiming

/-- Its name in a file. -/
def name : PushTiming → String
  | .immediate => "immediate"
  | .nextTick => "nextTick"

/-- The timing of a name, or of an object with only that name. -/
def format : Format PushTiming :=
  Format.choice [("immediate", .immediate), ("nextTick", .nextTick)]

end PushTiming

/-- Why a set-up is refused. -/
inductive ConfigError where
  /-- An encoding that does not carry the request's name, and a transport that needs it. -/
  | incompatible (transport : Transport) (encoding : Encoding)
  | emptyCallbackStem
  | emptyCallbackKey
  | transportMismatch (configured actual : Transport)
  deriving DecidableEq, Repr

/-- The wording of a refusal. -/
def ConfigError.message : ConfigError → String
  | .incompatible t e =>
    s!"the {e.title} encoding carries no callback id and cannot be used " ++
      s!"with the {t.title} transport"
  | .emptyCallbackStem => "callbackPrefix must not be empty"
  | .emptyCallbackKey => "callbackKey must not be empty"
  | .transportMismatch configured actual =>
    s!"config selects the {configured.title} transport but a {actual.title} transport was supplied"

/-- The set-up of a bridge. -/
structure Config where
  transport : Transport
  encoding : Encoding
  /-- How many milliseconds a request may wait, if it is said. -/
  timeout : Option Nat
  /-- What the names of requests begin with. -/
  callbackStem : String
  /-- The query key that carries the name of a request. -/
  callbackKey : String
  /-- What the URLs of requests begin with. -/
  baseUrl : String
  pushTiming : PushTiming
  deriving DecidableEq, Repr

namespace Config

/-- The default: fetches with positional arguments. -/
def fetch : Config := ⟨.fetch, .argsArray, none, "__jp", "callback", "prefs://", .nextTick⟩

/-- Script tags with a JSON query. -/
def scriptTag : Config := { fetch with transport := .scriptTag, encoding := .jsonQuery }

/-- How long a request over script tags waits if nothing is said. -/
def scriptTagTimeout : Nat := 15000

/-- How long a request waits if it does not say so itself. -/
def effectiveTimeout (c : Config) : Option Nat :=
  match c.timeout, c.transport with
  | some ms, _ => some ms
  | none, .scriptTag => some scriptTagTimeout
  | none, .fetch => none

/-- Refuses empty names, and script tags with an encoding that does not name the request. -/
def validate (c : Config) : Except ConfigError Unit :=
  if c.callbackStem = "" then .error .emptyCallbackStem
  else if c.callbackKey = "" then .error .emptyCallbackKey
  else if c.transport = .scriptTag ∧ c.encoding = .argsArray then
    .error (.incompatible c.transport c.encoding)
  else .ok ()

/-! ## In JSON -/

/-- The form of a set-up; every field may be missing. -/
def record : Record Config where
  title := "BridgeConfig"
  blank := fetch
  fields := [
    .withDefault "transport" Transport.format fun t c => { c with transport := t },
    .withDefault "encoding" Encoding.format fun e c => { c with encoding := e },
    .withDefault "timeoutMs" (.optional .natural) fun ms c => { c with timeout := ms },
    .withDefault "callbackPrefix" .text fun s c => { c with callbackStem := s },
    .withDefault "callbackKey" .text fun s c => { c with callbackKey := s },
    .withDefault "baseUrl" .text fun s c => { c with baseUrl := s },
    .withDefault "pushSettlement" PushTiming.format fun p c => { c with pushTiming := p }]
  extra := none

/-- A set-up in JSON. -/
def format : Format Config := record.format

/-- A set-up as an object; a limit that is not said is left out. -/
def toJson (c : Config) : Json :=
  Json.ofMembers (
    [("transport", .string c.transport.name), ("encoding", .string c.encoding.name),
      ("callbackPrefix", .string c.callbackStem), ("callbackKey", .string c.callbackKey),
      ("baseUrl", .string c.baseUrl), ("pushSettlement", .string c.pushTiming.name)] ++
    (c.timeout.map fun ms => ("timeoutMs", Json.int ms)).toList)

/-- The set-up of a file; the default one if there is no file, or if what it says is refused. -/
def load (content : Option (List UInt8)) : Config :=
  match content with
  | none => fetch
  | some octets =>
    match Utf8.decode octets with
    | .error _ => fetch
    | .ok text =>
      match format.parse text with
      | .error _ => fetch
      | .ok c =>
        match c.validate with
        | .error _ => fetch
        | .ok _ => c

end Config

end Hostlink
