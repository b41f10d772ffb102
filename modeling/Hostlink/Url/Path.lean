import Hostlink.Url.Host

/-!
# Paths of URLs

A path is read as the list of its segments; `.` and `..` are resolved while it is read.

* `Path.encode` — the characters that a path may not hold are written as triplets;
* `Path.close` — what one more segment does to the segments before it;
* `Path.ofSegments`, `Path.resolve` — the path of a list of segments and of a text.
-/

namespace Hostlink.Url

/-- How a scheme reads what follows it. -/
inductive Kind where
  /-- A file. -/
  | file
  /-- The web, where a backslash is a slash and a host is needed. -/
  | web
  /-- Any other scheme. -/
  | other
  deriving DecidableEq, Repr

namespace Kind

/-- The kind of a lower-case scheme. -/
def ofScheme (scheme : List Char) : Kind :=
  let s := String.ofList scheme
  if s = "file" then .file
  else if s ∈ ["http", "https", "ws", "wss", "ftp"] then .web
  else .other

/-- Is this character a slash? -/
def isSlash (k : Kind) (c : Char) : Bool := c = '/' || (c = '\\' && k ≠ .other)

end Kind

namespace Path

/-- Octets that a path holds as they are. -/
def isKept (b : UInt8) : Bool :=
  33 ≤ b && b < 127 && !("\"<>`#?\x7b\x7d".toList.any (·.toNat = b.toNat))

/-- A segment as it is written. -/
def encode (segment : List Char) : List Char :=
  Percent.encodeOctets isKept (Utf8.encode (String.ofList segment))

/-- The segment with its escaped points written as points. -/
def unescapePoints : List Char → List Char
  | '%' :: '2' :: 'e' :: rest => '.' :: unescapePoints rest
  | '%' :: '2' :: 'E' :: rest => '.' :: unescapePoints rest
  | c :: rest => c :: unescapePoints rest
  | [] => []

/-- Does a segment stand for the place itself? -/
def isSame (segment : List Char) : Bool := unescapePoints segment = ['.']

/-- Does a segment stand for the place above? -/
def isAbove (segment : List Char) : Bool := unescapePoints segment = ['.', '.']

/-- A letter and a colon or bar: the letter of a drive. -/
def driveLetter? : List Char → Option Char
  | [c, d] => if c.isAlpha ∧ (d = ':' ∨ d = '|') then some c else none
  | _ => none

/-- The segments before the last one, unless that names a drive. Segments are given last first. -/
def up : List (List Char) → List (List Char)
  | [] => []
  | s :: rest => if (driveLetter? s).isSome then s :: rest else rest

/-- The first segment of a file's path. A drive is written with a colon, and what stands behind a
drive and its colon becomes a segment of its own. Segments are given last first. -/
def startOfFile (segment : List Char) : List (List Char) :=
  match segment with
  | [c, d] => if (driveLetter? [c, d]).isSome then [[c, ':']] else [segment]
  | c :: ':' :: rest => if c.isAlpha then [rest, [c, ':']] else [segment]
  | _ => [segment]

/-- One more segment; `last` if none follows. Segments are given last first. -/
def close (k : Kind) (segments : List (List Char)) (segment : List Char) (last : Bool) :
    List (List Char) :=
  if isAbove segment then
    if last then [] :: up segments else up segments
  else if isSame segment then
    if last then [] :: segments else segments
  else
    if k = .file ∧ segments = [] then startOfFile segment else segment :: segments

/-- Resolves segments after those in `done`, which are given last first. -/
def ofSegments (k : Kind) (done : List (List Char)) : List (List Char) → List (List Char)
  | [] => done.reverse
  | s :: rest => ofSegments k (close k done (encode s) rest.isEmpty) rest

/-- Drops empty segments at the start; a path keeps one segment. -/
def dropEmpty : List (List Char) → List (List Char)
  | [] :: s :: rest => dropEmpty (s :: rest)
  | segments => segments

/-- The path of a text that follows the first slash. -/
def resolve (k : Kind) (text : List Char) : List Char :=
  let segments := ofSegments k [] (Text.splitWhere k.isSlash text)
  let segments := if k = .file then dropEmpty segments else segments
  '/' :: List.intercalate ['/'] segments

end Path

end Hostlink.Url
