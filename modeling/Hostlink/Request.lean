import Hostlink.Args
import Hostlink.Config
import Hostlink.Text.Base64
import Hostlink.Url

/-!
# Requests as URLs

A page asks its host for something by a URL, so all arguments travel in the query. `Codec.encode`
writes a request in one of three layouts, and `Codec.decode` reads it back:

* `b64Json` — `key=value` pairs. A text is written as it is; any other value goes under the key
  with a mark behind it, as base64 of its JSON. The last pair names the request.
* `jsonQuery` — one JSON object, in which the name of the request is a member;
* `argsArray` — one JSON array of the values. The request is not named.

Path and query are split by `splitUrl`; it passes over a first segment `null`, which a page without
a host of its own puts there.
-/

namespace Hostlink

/-- Why a request cannot be written. -/
inductive EncodeError where
  | positionalUnsupported (strategy : String)
  | reservedKey (key : String)
  | serialize (key reason : String)
  deriving DecidableEq, Repr

/-- The wording of a refusal to write. -/
def EncodeError.message : EncodeError → String
  | .positionalUnsupported s => s!"positional arguments cannot be sent with the {s} encoding"
  | .reservedKey k => s!"parameter key '{k}' is reserved by the request encoding"
  | .serialize k r => s!"failed to serialize parameter '{k}': {r}"

/-- Why a URL is not read as a request. -/
inductive DecodeError where
  | invalidUrl (url reason : String)
  | invalidQuery (reason : String)
  | invalidB64Json (key reason : String)
  deriving DecidableEq, Repr

/-- The wording of a refusal to read. -/
def DecodeError.message : DecodeError → String
  | .invalidUrl url reason => s!"invalid request url '{url}': {reason}"
  | .invalidQuery reason => s!"invalid query: {reason}"
  | .invalidB64Json key reason => s!"parameter '{key}' is not valid base64 json: {reason}"

/-- A request as the host reads it. -/
structure Request where
  path : String
  args : Args
  /-- The name under which an answer is expected. -/
  callback : Option String
  deriving DecidableEq, Repr

namespace Request

/-! ## URLs -/

/-- Does a text hold `://`? -/
def hasAuthority (text : List Char) : Bool := Text.holds "://".toList text

/-- A query that begins with nothing: `?&` becomes `?`. -/
def dropEmptyPair : List Char → List Char
  | [] => []
  | '?' :: '&' :: rest => '?' :: dropEmptyPair rest
  | c :: rest => c :: dropEmptyPair rest

/-- A text without slashes at its end. -/
def trimSlashes (text : List Char) : List Char := (text.reverse.dropWhile (· = '/')).reverse

/-- What stands before a path: nothing if the path is a URL itself. A base that ends in `://` keeps
its slashes, so that the host stays empty. -/
def base (baseUrl path : List Char) : List Char :=
  if hasAuthority path then []
  else
    (if ['/', '/', ':'].isPrefixOf baseUrl.reverse then baseUrl else trimSlashes baseUrl) ++
      (if path.head? = some '/' then [] else ['/'])

/-- The URL of a base, a path that may have a query already, and a query. -/
def joinUrl (baseUrl path query : List Char) : List Char :=
  dropEmptyPair (base baseUrl path ++ path ++
    (if query = [] then []
    else (if path.contains '?' then '&' else '?') :: query))

/-- A path without a first segment `null`. -/
def dropNull : List Char → List Char
  | '/' :: 'n' :: 'u' :: 'l' :: 'l' :: rest =>
    if rest = [] ∨ rest.head? = some '/' then rest else '/' :: 'n' :: 'u' :: 'l' :: 'l' :: rest
  | path => path

/-- The path of a parsed URL; `null` counts as a host if it stands for one. -/
def pathOf (u : Url) : String :=
  let path := if u.host = some "null" then u.path.toList else dropNull u.path.toList
  if path = [] then "/" else String.ofList path

/-- The path of a URL, and its query, which is empty if there is none. -/
def splitUrl (url : String) : Except DecodeError (String × List Char) :=
  match Url.parse url with
  | .error fault => .error (.invalidUrl url fault.message)
  | .ok u => .ok (pathOf u, (u.query.getD "").toList)

/-- A percent-coded part of a query. -/
def component (part : List Char) : Except DecodeError String :=
  match Component.decode (String.ofList part) with
  | .ok s => .ok s
  | .error fault => .error (.invalidQuery fault.message)

/-- The parts of a query. -/
def parts (query : List Char) : List (List Char) := Text.splitWhere (· = '&') query

/-- The last part of a query that is not empty; none if it is a pair. -/
def payload? (query : List Char) : Option (List Char) :=
  match (parts query).reverse.find? (· ≠ []) with
  | some part => if part.contains '=' then none else some part
  | none => none

/-! ## Pairs with base64 -/

/-- The mark behind the key of a value that is no text. -/
def b64Mark : String := "_b64json"

/-- Is a key marked? -/
def isMarked (key : String) : Bool := b64Mark.toList.reverse.isPrefixOf key.toList.reverse

/-- A key without its mark. -/
def unmark (key : String) : String :=
  String.ofList (key.toList.take (key.toList.length - b64Mark.length))

/-- A pair of a query. -/
def pair (key : String) (v : Json) : String :=
  match v with
  | .string s => Component.encode key ++ "=" ++ Component.encode s
  | v =>
    let symbols := Base64.encode (Utf8.encode v.render)
    Component.encode key ++ b64Mark ++ "=" ++ Component.encode (String.ofList symbols)

/-- The key and value of a part of a query. -/
def splitPair (part : List Char) : List Char × List Char :=
  (part.takeWhile (· ≠ '='), (part.dropWhile (· ≠ '=')).drop 1)

/-- The value behind a marked key. -/
def unwrap (key text : String) : Except DecodeError Json :=
  match Base64.decode (Utf8.encode text) with
  | .error fault => .error (.invalidB64Json key fault.message)
  | .ok octets =>
    match Json.parse octets with
    | .error fault => .error (.invalidB64Json key fault.message)
    | .ok v => .ok v

/-- Pairs that have been read, last first, and the name of the request. -/
structure Pairs where
  reversed : List (String × Json)
  callback : Option String

/-- Reads one more part of a query. -/
def readPair (callbackKey : String) (read : Pairs) (part : List Char) :
    Except DecodeError Pairs := do
  let (rawKey, rawValue) := splitPair part
  let key ← component rawKey
  let text ← component rawValue
  if key = callbackKey then pure { read with callback := some text }
  else if isMarked key then do
    let v ← unwrap key text
    pure { read with reversed := (unmark key, v) :: read.reversed }
  else pure { read with reversed := (key, .string text) :: read.reversed }

/-- Named arguments, or none. -/
def namedArgs (pairs : List (String × Json)) : Args :=
  if pairs = [] then .none else .named pairs

end Request

/-! ## The three layouts -/

/-- How requests are written and read. -/
structure Codec where
  encoding : Encoding
  baseUrl : String
  callbackKey : String
  deriving DecidableEq, Repr

/-- The codec of a set-up. -/
def Config.codec (c : Config) : Codec := ⟨c.encoding, c.baseUrl, c.callbackKey⟩

namespace Codec

open Request

variable (c : Codec)

/-- The URL of a path and a query. -/
def url (path query : String) : String :=
  String.ofList (joinUrl c.baseUrl.toList path.toList query.toList)

/-- The pairs of arguments for a layout with names. The key that names the request is not free. -/
def namedPairs (args : Args) : Except EncodeError (List (String × Json)) :=
  match args with
  | .positional _ => .error (.positionalUnsupported c.encoding.name)
  | .named pairs =>
    if (args.get? c.callbackKey).isSome then .error (.reservedKey c.callbackKey) else .ok pairs
  | .none => .ok []

/-- The query of a request. -/
def query (args : Args) (id : String) : Except EncodeError String :=
  match c.encoding with
  | .b64Json => do
    let pairs ← c.namedPairs args
    match pairs.find? (isMarked ·.1) with
    | some (key, _) => .error (.reservedKey key)
    | none =>
      .ok (String.intercalate "&" (pairs.map (fun p => pair p.1 p.2) ++
        [Component.encode c.callbackKey ++ "=" ++ Component.encode id]))
  | .jsonQuery => do
    let pairs ← c.namedPairs args
    let object := Json.ofMembers (pairs ++ [(c.callbackKey, .string id)])
    .ok (Component.encode object.render)
  | .argsArray =>
    .ok (if args.isEmpty then "" else Component.encode (Json.array args.values).render)

/-- The URL of a request. -/
def encode (path : String) (args : Args) (id : String) : Except EncodeError String := do
  let query ← c.query args id
  .ok (c.url path query)

/-- The value of a percent-coded JSON text. -/
def payloadJson (part : List Char) : Except DecodeError Json := do
  let text ← component part
  match Json.parseText text with
  | .ok v => .ok v
  | .error fault => .error (.invalidQuery fault.message)

/-- A request of pairs. -/
def decodePairs (path : String) (query : List Char) : Except DecodeError Request := do
  let read ← ((parts query).filter (· ≠ [])).foldlM (readPair c.callbackKey) ⟨[], none⟩
  .ok ⟨path, namedArgs read.reversed.reverse, read.callback⟩

/-- A request of an object. -/
def decodeObject (path : String) (query : List Char) : Except DecodeError Request :=
  match payload? query with
  | none => .error (.invalidQuery s!"no JSON object in query of {path}")
  | some part => do
    match ← payloadJson part with
    | .object members =>
      let callback := (Json.Members.lookup c.callbackKey members).map fun
        | .string id => id
        | v => v.render
      .ok ⟨path, namedArgs (Json.Members.erase c.callbackKey members), callback⟩
    | v => .error (.invalidQuery s!"expected a JSON object of parameters, got {v.render}")

/-- A request of an array. -/
def decodeArray (path : String) (query : List Char) : Except DecodeError Request :=
  match payload? query with
  | none => .ok ⟨path, .none, none⟩
  | some part => do
    match ← payloadJson part with
    | .array items => .ok ⟨path, .positional items, none⟩
    | v => .error (.invalidQuery s!"expected a JSON array of arguments, got {v.render}")

/-- The request of a URL. -/
def decode (url : String) : Except DecodeError Request := do
  let (path, query) ← splitUrl url
  match c.encoding with
  | .b64Json => c.decodePairs path query
  | .jsonQuery => c.decodeObject path query
  | .argsArray => decodeArray path query

end Codec

end Hostlink
