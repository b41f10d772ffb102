import Hostlink.Json.Format

/-!
# Errors that a host reports

A host says why a request failed by a text, or by an object with a text `message`. What it says
beyond the known members is kept, so that nothing is lost when the error is passed on.

* `HostError.ofJson` — the error of any value;
* `HostError.toJson` — the error as a value;
* `HostError.format` — the same in typed data, where only the two shapes above are accepted.
-/

namespace Hostlink

open Json (Format Reader Members Problem)

/-- The known members of an error that is an object, and the others. -/
structure ErrorRecord where
  message : String
  type : Option String
  name : Option String
  stacktrace : Option Json
  details : Option Json
  extra : Members
  deriving DecidableEq, Repr

/-- An error that a host reports. -/
inductive HostError where
  | text (message : String)
  | structured (record : ErrorRecord)
  deriving DecidableEq, Repr

namespace ErrorRecord

/-- Names of the known members. -/
def knownKeys : List String := ["message", "type", "errorName", "stacktrace", "details"]

/-- A text that may be missing or `null`; `none` for any other value. -/
def optionalText? : Option Json → Option (Option String)
  | none | some .null => some none
  | some (.string s) => some (some s)
  | some _ => none

/-- A value, unless it is missing or `null`. -/
def present : Option Json → Option Json
  | some .null => none
  | v => v

/-- The error of an object's members; `none` if they are not of that form. -/
def ofMembers? (ms : Members) : Option ErrorRecord := do
  let message ← (← Members.lookup "message" ms).asString?
  let type ← optionalText? (Members.lookup "type" ms)
  let name ← optionalText? (Members.lookup "errorName" ms)
  some ⟨message, type, name, present (Members.lookup "stacktrace" ms),
    present (Members.lookup "details" ms), ms.filter (! knownKeys.contains ·.1)⟩

/-- The members of an error; what it does not have is left out. -/
def members (e : ErrorRecord) : Members :=
  let optional := fun (key : String) (v : Option Json) => (v.map fun v => (key, v)).toList
  Members.ofList (("message", .string e.message) :: optional "type" (e.type.map .string) ++
    optional "errorName" (e.name.map .string) ++ optional "stacktrace" e.stacktrace ++
    optional "details" e.details ++ e.extra)

end ErrorRecord

namespace HostError

/-- An error with a message and a type. -/
def ofType (message type : String) : HostError :=
  .structured ⟨message, some type, none, none, none, []⟩

/-- The error of a value that has one of the two shapes. -/
def ofShape? : Json → Option HostError
  | .string s => some (.text s)
  | .object ms => (ErrorRecord.ofMembers? ms).map .structured
  | _ => none

/-- The error of any value; what has neither shape is kept as its own text. -/
def ofJson (v : Json) : HostError := (ofShape? v).getD (.text v.render)

/-- The error as a value. -/
def toJson : HostError → Json
  | .text s => .string s
  | .structured e => .object e.members

/-- What happened. -/
def message : HostError → String
  | .text s => s
  | .structured e => e.message

/-- The type of an error that has one. -/
def type? : HostError → Option String
  | .text _ => none
  | .structured e => e.type

/-- The name of an error that has one. -/
def name? : HostError → Option String
  | .text _ => none
  | .structured e => e.name

/-- The same error under a name. -/
def withName (name : String) : HostError → HostError
  | .text s => .structured ⟨s, none, some name, none, none, []⟩
  | .structured e => .structured { e with name := some name }

/-- The error on one line: the message, after the type if there is one. -/
def display (e : HostError) : String :=
  match e.type? with
  | some type => s!"{type}: {e.message}"
  | none => e.message

/-! ## In typed data -/

/-- The problem of a value of neither shape. -/
def noShape : Problem := .noAlternative "HostError"

/-- Is a known key among the pairs twice? -/
def repeatsKnown (pairs : List (String × Json)) : Bool :=
  ErrorRecord.knownKeys.any fun key => 1 < (pairs.filter (·.1 = key)).length

/-- Reads an error. A value of neither shape has no place. -/
def read (room : Nat) : Reader HostError := do
  let found ← (do
    match ← Reader.peekToken with
    | some 123 => do
      let inside ← Reader.enter room
      let n ← Reader.remaining
      let pairs ← Reader.membersFrom inside true (2 * n + 2)
      let pairs ← Reader.close Reader.tryEndObject (.ok pairs)
      pure (if repeatsKnown pairs then none else ofShape? (Json.ofMembers pairs))
    | _ => do
      let v ← Reader.value room
      pure (ofShape? v))
  match found with
  | some e => pure e
  | none => fun _ => .error ⟨noShape, none⟩

/-- An error in typed data. -/
def format : Format HostError where
  ofJson v :=
    match ofShape? v with
    | some e => .ok e
    | none => .error noShape
  read := read

end HostError

end Hostlink
