import Hostlink.Json.Format

/-!
# Pushes of a host

A host tells a page of an event without being asked. Two events name the handler that waits for
them; any other event may itself be the name of a handler.

* `Push.classify` — what the name of an event says;
* `Push.legacyValue` — the value that any other event carries for the handler of its name.
-/

namespace Hostlink

open Json (Format Record Field)

/-- An event and what came with it. -/
structure Push where
  event : String
  data : Json
  deriving DecidableEq, Repr

/-- A key combination, and how it is shown. -/
structure Hotkey where
  value : String
  display : String
  deriving DecidableEq, Repr

/-- The form of a key combination. -/
def Hotkey.record : Record Hotkey where
  title := "HotkeyCapture"
  blank := ⟨"", ""⟩
  fields := [
    .needed "value" .text fun s h => { h with value := s },
    .withDefault "displayValue" .text fun s h => { h with display := s }]
  extra := none

/-- A key combination as an object. -/
def Hotkey.toJson (h : Hotkey) : Json :=
  Json.ofMembers [("value", .string h.value), ("displayValue", .string h.display)]

namespace Push

/-- The form of a push. -/
def record : Record Push where
  title := "Notification"
  blank := ⟨"", .null⟩
  fields := [
    .needed "eventName" .text fun s p => { p with event := s },
    .needed "data" .json fun v p => { p with data := v }]
  extra := none

/-- A push as an object. -/
def toJson (p : Push) : Json := Json.ofMembers [("eventName", .string p.event), ("data", p.data)]

/-- A key combination was entered. -/
def hotkeyCaptured : String := "hotkey-captured"

/-- A file was chosen, or none. -/
def fileSelect : String := "file-select"

/-- What the name of an event says. -/
inductive Address where
  /-- It is for the handler `name`, and carries `value`; with none, nothing was chosen. -/
  | named (name : String) (value : Option Json)
  /-- It names no handler by its form. -/
  | other
  deriving DecidableEq, Repr

/-- The text under a key of an object. -/
def text? (data : Json) (key : String) : Option String := (data.get? key).bind Json.asString?

/-- The text under a key of an object, unless it is empty. -/
def nonEmpty? (data : Json) (key : String) : Option String := (text? data key).filter (· ≠ "")

/-- What the name of an event says of it. -/
def classify (event : String) (data : Json) : Address :=
  match text? data "name" with
  | none => .other
  | some name =>
    if event = hotkeyCaptured then
      .named name ((nonEmpty? data "value").map fun value =>
        (Hotkey.mk value ((text? data "displayValue").getD "")).toJson)
    else if event = fileSelect then .named name ((nonEmpty? data "path").map .string)
    else .other

/-- The value of an event whose name is that of a handler: a key combination if it says how that is
shown, else the value itself. -/
def legacyValue (data : Json) : Option Json :=
  ((data.get? "value").filter Json.isTruthy).map fun v =>
    match v, text? data "displayValue" with
    | .string value, some display => (Hotkey.mk value display).toJson
    | v, _ => v

end Push

end Hostlink
