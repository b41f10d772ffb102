import Hostlink.Url.Path

/-!
# URLs

`Url.parse` reads a URL the way a browser does: it is trimmed, its path is resolved, and what may
not stand in a path or query is written as triplets. User, port and fragment are read and dropped.
-/

namespace Hostlink

/-- What is asked of a URL. -/
structure Url where
  /-- The name of the host, if the URL has a host that is named. -/
  host : Option String
  path : String
  query : Option String
  deriving DecidableEq, Repr

namespace Url

/-! ## Scheme -/

/-- A character of a scheme. -/
def isSchemeChar (c : Char) : Bool := c.isAlphanum || c = '+' || c = '-' || c = '.'

/-- Splits a text into its scheme, in lower case, and what follows the colon. -/
def splitScheme? (text : List Char) : Option (List Char × List Char) :=
  match text.head?, text.dropWhile isSchemeChar with
  | some c, ':' :: rest =>
    if c.isAlpha then some ((text.takeWhile isSchemeChar).map Char.toLower, rest) else none
  | _, _ => none

/-! ## Authority -/

/-- The characters before the last `@`, if there is one, and those after it. -/
def splitUser (text : List Char) : Option (List Char) × List Char :=
  match (Text.splitWhere (· = '@') text).reverse with
  | host :: user :: users =>
    (some (List.intercalate ['@'] (user :: users).reverse), host)
  | _ => (none, text)

/-- The host at the start of a text: up to a colon that is not inside brackets. -/
def takeHost (inside : Bool) : List Char → List Char × List Char
  | [] => ([], [])
  | c :: rest =>
    if c = ':' ∧ ! inside then ([], c :: rest)
    else
      let inside := if c = '[' then true else if c = ']' then false else inside
      let (host, after) := takeHost inside rest
      (c :: host, after)

/-- Passes a port; what follows it may only be a backslash. -/
def passPort (text : List Char) : Except Fault (List Char) :=
  match text with
  | ':' :: rest =>
    let digits := rest.takeWhile Char.isDigit
    let after := rest.dropWhile Char.isDigit
    if 65535 < (numeral? 10 digits).getD 0 then .error .invalidPort
    else if after.isEmpty ∨ after.head? = some '\\' then .ok after
    else .error .invalidPort
  | _ => .ok text

/-- Reads an authority; `more` if something follows it. The result is the name of the host, and
what follows the port. -/
def authority (k : Kind) (text : List Char) (more : Bool) :
    Except Fault (Option String × List Char) := do
  let (user, text) := splitUser text
  if user = some [] ∧ text = [] ∧ more then throw .emptyHost
  let (host, after) := takeHost false text
  if host = [] then
    if k = .web ∨ after.head? = some ':' then throw .emptyHost
    else if user.isSome ∧ user ≠ some [] ∧ user ≠ some [':'] then throw .emptyHost
    else pure (none, after)
  else do
    let host ← if k = .web then Host.ofSpecial host else Host.ofOther host
    let after ← passPort after
    match host with
    | .name s => pure (some s, after)
    | .address => pure (none, after)

/-! ## What follows a scheme -/

/-- Characters of a query that is written as it is; a web or file query also escapes `'`. -/
def isQueryKept (k : Kind) (b : UInt8) : Bool :=
  33 ≤ b && b < 127 && !("\"#<>".toList.any (·.toNat = b.toNat)) && (k = .other || b ≠ 39)

/-- The query of a text that begins with a question mark. -/
def queryOf (k : Kind) : List Char → Option String
  | '?' :: rest =>
    some (String.ofList (Percent.encodeOctets (isQueryKept k) (Utf8.encode (String.ofList rest))))
  | _ => none

/-- Drops one slash at the start. -/
def dropSlash (k : Kind) : List Char → List Char
  | c :: rest => if k.isSlash c then rest else c :: rest
  | [] => []

/-- The path after an authority. -/
def pathAfterHost (k : Kind) (text : List Char) : String :=
  if k = .other ∧ text = [] then "" else String.ofList (Path.resolve k (dropSlash k text))

/-- The path that follows a scheme without a slash: control characters alone are escaped. -/
def freePath (text : List Char) : String :=
  String.ofList (Percent.encodeOctets Url.isPlainOctet (Utf8.encode (String.ofList text)))

/-- Host and path of a text that begins with an authority; `more` if something follows it. -/
def withAuthority (k : Kind) (text : List Char) (more : Bool) :
    Except Fault (Option String × String) := do
  let ends := fun c => k.isSlash c
  let after := text.dropWhile (! ends ·)
  let (host, rest) ← authority k (text.takeWhile (! ends ·)) (more || !after.isEmpty)
  pure (host, pathAfterHost k (rest ++ after))

/-- Host and path of a file: the host may be missing, or be this one. A drive is no host. -/
def withFileHost (text : List Char) : Except Fault (Option String × String) :=
  let host := text.takeWhile (! Kind.isSlash .file ·)
  let after := text.dropWhile (! Kind.isSlash .file ·)
  if host = [] then .ok (none, pathAfterHost .file after)
  else if (Path.driveLetter? host).isSome then .ok (none, pathAfterHost .file text)
  else do
    let path := pathAfterHost .file after
    match ← Host.ofSpecial host with
    | .name s => pure (if s = "localhost" then none else some s, path)
    | .address => pure (none, path)

/-- Host and path of what follows a scheme; `more` if a query or fragment follows. -/
def hostAndPath (k : Kind) (text : List Char) (more : Bool) :
    Except Fault (Option String × String) :=
  match k with
  | .web => withAuthority k (text.dropWhile k.isSlash) more
  | .file =>
    match text with
    | c :: d :: rest =>
      if k.isSlash c && k.isSlash d then withFileHost rest else .ok (none, pathAfterHost k text)
    | _ => .ok (none, pathAfterHost k text)
  | .other =>
    match text with
    | '/' :: '/' :: rest => withAuthority k rest more
    | '/' :: rest => .ok (none, String.ofList (Path.resolve k rest))
    | _ => .ok (none, freePath text)

/-! ## Whole texts -/

/-- Blanks and control characters. -/
def isBlank (c : Char) : Bool := c.toNat ≤ 32

/-- Tabulators and line ends, which may stand anywhere and count nowhere. -/
def isIgnored (c : Char) : Bool := c = '\t' || c = '\n' || c = '\r'

/-- A text without blanks around it and without ignored characters. -/
def trim (text : List Char) : List Char :=
  ((text.dropWhile isBlank).reverse.dropWhile isBlank).reverse.filter (! isIgnored ·)

/-- Reads a text without blanks. -/
def ofChars (text : List Char) : Except Fault Url :=
  match splitScheme? text with
  | none => .error .relative
  | some (scheme, rest) => do
    let k := Kind.ofScheme scheme
    let body := rest.takeWhile (· ≠ '#')
    let front := body.takeWhile (· ≠ '?')
    let (host, path) ← hostAndPath k front (front.length < rest.length)
    pure ⟨host, path, queryOf k (body.dropWhile (· ≠ '?'))⟩

/-- Reads a URL. -/
def parse (s : String) : Except Fault Url := ofChars (trim s.toList)

end Url

end Hostlink
