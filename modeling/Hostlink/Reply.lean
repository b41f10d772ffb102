import Hostlink.Json.Parser
import Hostlink.Rejection

/-!
# Replies of a host

A host answers with a value and an error. A script tag hands over both; a fetch answers with a JSON
array of one or two items. An error counts only if it is truthy.

* `Reply.settle` — what a value and an error settle;
* `Reply.decode`, `Reply.encode` — the body of a fetch, read and written;
* `Reply.preview` — the start of a body, for a log.
-/

namespace Hostlink.Reply

/-- What a value and an error settle. -/
def settle (data : Json) (error : Option Json) : Settlement :=
  match error with
  | some e => if e.isTruthy then .error (.host (.ofJson e)) else .ok data
  | none => .ok data

/-- What the items of a body settle. -/
def settleItems : List Json → Settlement
  | [data] => settle data none
  | [data, error] => settle data (some error)
  | items =>
    .error (.malformed s!"reply array has {items.length} elements, expected 1 or 2")

/-- What a body settles. -/
def decode (body : List UInt8) : Settlement :=
  match Json.parse body with
  | .error fault => .error (.malformed s!"reply is not JSON: {fault.message}")
  | .ok (.array items) => settleItems items
  | .ok _ => .error (.malformed "reply is not a [payload, error] array")

/-- The body of an answer; it has an error only if there is one. -/
def body : Except HostError Json → Json
  | .ok v => .array [v]
  | .error e => .array [.null, e.toJson]

/-- The body of an answer, as octets. -/
def encode (answer : Except HostError Json) : List UInt8 := Utf8.encode (body answer).render

/-! ## Previews -/

/-- How many octets of a body a log shows. -/
def previewSize : Nat := 200

/-- The start of a text, and the size of the whole of it in octets. A text that is too long is cut at the last place
between characters that is not too far; `none` if there is no such place, or what stands before it is no text. -/
def preview? (s : String) : Option (String × Nat) :=
  let octets := Utf8.encode s
  if previewSize < octets.length then do
    let place ← Utf8.goBack? octets previewSize
    let start ← (Utf8.decode (octets.take place)).toOption
    some (start, octets.length)
  else some (s, octets.length)

/-- The start of a text, and the size of the whole of it in octets; every text has one. -/
def preview (s : String) : String × Nat := (preview? s).getD ("", 0)

end Hostlink.Reply
