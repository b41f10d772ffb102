import Hostlink.Json.Printer
import Hostlink.Text.Quoted

/-!
# Why JSON is refused

* `Json.Problem` — what is wrong, with a text or with a value that should have some type;
* `Json.Fault` — a problem, and where in a text it was met;
* `Fault.message` — the wording.
-/

namespace Hostlink.Json

/-- A place in a text: the line, from one, and how many octets of the line have been read. -/
structure Position where
  line : Nat
  column : Nat
  deriving DecidableEq, Repr

/-- The place after one more octet. -/
def Position.next (p : Position) (b : UInt8) : Position :=
  if b = 10 then ⟨p.line + 1, 0⟩ else ⟨p.line, p.column + 1⟩

/-- What was found where something else was expected. -/
inductive Found where
  | null
  | bool (b : Bool)
  | integer (n : Int)
  | real (x : Binary64)
  | text (s : String)
  | list
  | map
  deriving DecidableEq, Repr

/-- What a value is found to be. -/
def Found.of : Json → Found
  | .null => .null
  | .bool b => .bool b
  | .number (.int n) => .integer n
  | .number (.real x) => .real x
  | .string s => .text s
  | .array _ => .list
  | .object _ => .map

/-- The wording of a finding. -/
def Found.message : Found → String
  | .null => "null"
  | .bool b => s!"boolean `{b}`"
  | .integer n => s!"integer `{n}`"
  | .real x => "floating point `" ++ String.ofList (Number.real x).text ++ "`"
  | .text s => "string " ++ Text.quoted s
  | .list => "sequence"
  | .map => "map"

/-- What is wrong. -/
inductive Problem where
  | endInValue
  | endInList
  | endInObject
  | endInString
  | expectedColon
  | expectedListEnd
  | expectedObjectEnd
  | expectedWord
  | expectedValue
  | invalidEscape
  | invalidNumber
  | numberOutOfRange
  | invalidCodePoint
  | controlCharacter
  | keyNotString
  | loneSurrogate
  | unfinishedSurrogate
  | trailingComma
  | trailingCharacters
  | tooDeep
  /-- A value of another type. -/
  | wrongType (found : Found) (expected : String)
  /-- A value of the type that is out of its range. -/
  | wrongValue (found : Found) (expected : String)
  /-- A list or object of the wrong size. -/
  | wrongLength (size : Nat) (expected : String)
  | missingField (name : String)
  | duplicateField (name : String)
  | unknownChoice (name : String) (choices : List String)
  /-- None of the alternatives of a type fits. -/
  | noAlternative (type : String)
  deriving DecidableEq, Repr

/-- Names in backticks, as a list of alternatives. -/
def alternatives : List String → String
  | [] => "there are no variants"
  | [a] => s!"expected `{a}`"
  | [a, b] => s!"expected `{a}` or `{b}`"
  | names => "expected one of " ++ String.intercalate ", " (names.map (fun n => s!"`{n}`"))

/-- The wording of a problem. -/
def Problem.message : Problem → String
  | .endInValue => "EOF while parsing a value"
  | .endInList => "EOF while parsing a list"
  | .endInObject => "EOF while parsing an object"
  | .endInString => "EOF while parsing a string"
  | .expectedColon => "expected `:`"
  | .expectedListEnd => "expected `,` or `]`"
  | .expectedObjectEnd => "expected `,` or `\x7d`"
  | .expectedWord => "expected ident"
  | .expectedValue => "expected value"
  | .invalidEscape => "invalid escape"
  | .invalidNumber => "invalid number"
  | .numberOutOfRange => "number out of range"
  | .invalidCodePoint => "invalid unicode code point"
  | .controlCharacter => "control character (\\u0000-\\u001F) found while parsing a string"
  | .keyNotString => "key must be a string"
  | .loneSurrogate => "lone leading surrogate in hex escape"
  | .unfinishedSurrogate => "unexpected end of hex escape"
  | .trailingComma => "trailing comma"
  | .trailingCharacters => "trailing characters"
  | .tooDeep => "recursion limit exceeded"
  | .wrongType found expected => s!"invalid type: {found.message}, expected {expected}"
  | .wrongValue found expected => s!"invalid value: {found.message}, expected {expected}"
  | .wrongLength size expected => s!"invalid length {size}, expected {expected}"
  | .missingField name => s!"missing field `{name}`"
  | .duplicateField name => s!"duplicate field `{name}`"
  | .unknownChoice name choices => s!"unknown variant `{name}`, {alternatives choices}"
  | .noAlternative type => s!"data did not match any variant of untagged enum {type}"

/-- A problem and, if it was met while a text was read, its place. -/
structure Fault where
  problem : Problem
  place : Option Position
  deriving DecidableEq, Repr

/-- The wording of a fault. -/
def Fault.message (f : Fault) : String :=
  match f.place with
  | none => f.problem.message
  | some p => s!"{f.problem.message} at line {p.line} column {p.column}"

end Hostlink.Json
