import Hostlink.Push
import Hostlink.Records
import Hostlink.Rejection

/-!
# Operations on preferences

What a preferences page asks its host: for each operation the path and the arguments of its
request, and the typed value that it makes of the answer.

* `Operation.path`, `Operation.args` — the request;
* `Operation.result` — the value of an answer, or the rejection of one that does not fit.
-/

namespace Hostlink

open Json (Format)

/-- An operation on preferences. -/
inductive Operation where
  | getAll
  | set (property : String) (value : Json)
  | setHotkey (accelerator : String)
  | setAutostart (enabled : Bool)
  | openWebUrl (url : String)
  | openExtensionsDir
  | getShortcuts
  | addShortcut (draft : ShortcutDraft)
  | updateShortcut (shortcut : Shortcut)
  | removeShortcut (id : String)
  | getExtensions
  | addExtension (url : String)
  | updateExtensionPrefs (id : String) (data : Json)
  | checkExtensionUpdates (id : String)
  | updateExtension (id : String)
  | toggleExtension (id : String) (enabled : Bool)
  | removeExtension (id : String)
  deriving DecidableEq, Repr

/-- The value of an operation. -/
inductive OperationValue where
  | nothing
  | settings (s : Settings)
  | shortcut (s : Shortcut)
  | shortcuts (ss : List Shortcut)
  | extension (e : Extension)
  | extensions (es : List Extension)
  | updateCheck (c : UpdateCheck)
  deriving DecidableEq, Repr

/-- A value as JSON. -/
def OperationValue.toJson : OperationValue → Json
  | .nothing => .null
  | .settings s => s.toJson
  | .shortcut s => s.toJson
  | .shortcuts ss => .array (ss.map Shortcut.toJson)
  | .extension e => e.toJson
  | .extensions es => .array (es.map Extension.toJson)
  | .updateCheck c => c.toJson

namespace Operation

/-- The path of the request. -/
def path : Operation → String
  | .getAll => "/get/all"
  | .set _ _ | .setAutostart _ => "/set"
  | .setHotkey _ => "/set/hotkey-show-app"
  | .openWebUrl _ => "/open/web-url"
  | .openExtensionsDir => "/open/extensions-dir"
  | .getShortcuts => "/shortcut/get-all"
  | .addShortcut _ => "/shortcut/add"
  | .updateShortcut _ => "/shortcut/update"
  | .removeShortcut _ => "/shortcut/remove"
  | .getExtensions => "/extension/get-all"
  | .addExtension _ => "/extension/add"
  | .updateExtensionPrefs _ _ => "/extension/update-prefs"
  | .checkExtensionUpdates _ => "/extension/check-updates"
  | .updateExtension _ => "/extension/update-ext"
  | .toggleExtension _ _ => "/extension/toggle-enabled"
  | .removeExtension _ => "/extension/remove"

/-- A record as arguments: an object of its own where arguments have no names, else a named
argument for each member. -/
def recordArgs (encoding : Encoding) (v : Json) : Args :=
  if encoding = .argsArray then .positional [v] else .ofJson v

/-- The property that switches autostart. -/
def autostartProperty : String := "autostart-enabled"

/-- The arguments of the request. -/
def args (encoding : Encoding) : Operation → Args
  | .getAll | .openExtensionsDir | .getShortcuts | .getExtensions => .none
  | .set property v => .named [("property", .string property), ("value", v)]
  | .setAutostart enabled =>
    .named [("property", .string autostartProperty), ("value", .bool enabled)]
  | .setHotkey s => .named [("value", .string s)]
  | .openWebUrl url | .addExtension url => .named [("url", .string url)]
  | .addShortcut draft => recordArgs encoding draft.toJson
  | .updateShortcut shortcut => recordArgs encoding shortcut.toJson
  | .removeShortcut id | .checkExtensionUpdates id | .updateExtension id | .removeExtension id =>
    .named [("id", .string id)]
  | .updateExtensionPrefs id data => .named [("id", .string id), ("data", data)]
  | .toggleExtension id enabled => .named [("id", .string id), ("enabled", .bool enabled)]

/-- A typed value of an answer. -/
def typed {α : Type} (path : String) (decoded : Except Json.Fault α) : Except Rejection α :=
  match decoded with
  | .ok a => .ok a
  | .error fault => .error (.malformed s!"{path}: {fault.message}")

/-- The value of an answer. -/
def result (op : Operation) (v : Json) : Except Rejection OperationValue :=
  let typed := fun {α : Type} (wrap : α → OperationValue) (decoded : Except Json.Fault α) =>
    wrap <$> Operation.typed op.path decoded
  match op with
  | .getAll => typed .settings (Settings.record.format.decode v)
  | .getShortcuts => typed .shortcuts (Shortcut.record.format.listOf.decode v)
  | .addShortcut _ | .updateShortcut _ => typed .shortcut (Shortcut.record.format.decode v)
  | .getExtensions => typed .extensions (Extension.record.format.listOf.decode v)
  | .addExtension _ | .updateExtension _ => typed .extension (Extension.record.format.decode v)
  | .checkExtensionUpdates _ => typed .updateCheck (UpdateCheck.record.format.decode v)
  | .set _ _ | .setHotkey _ | .setAutostart _ | .openWebUrl _ | .openExtensionsDir
  | .removeShortcut _ | .updateExtensionPrefs _ _ | .toggleExtension _ _ | .removeExtension _ =>
    .ok .nothing

end Operation

/-! ## Dialogs -/

/-- A dialog that a host shows. -/
inductive DialogKind where
  /-- A key combination is to be entered. -/
  | hotkey
  /-- A file of a kind is to be chosen. -/
  | file (kind : FileKind)
  deriving DecidableEq, Repr

namespace DialogKind

/-- The path of the request. -/
def path : DialogKind → String
  | .hotkey => "/show/hotkey-dialog"
  | .file _ => "/show/file-browser"

/-- The arguments of the request for a dialog of a name. -/
def args (name : String) : DialogKind → Args
  | .hotkey => .named [("name", .string name)]
  | .file kind => .named [("type", .string kind.name), ("name", .string name)]

/-- The value of a dialog, once it has the right type. -/
def result (k : DialogKind) (v : Json) : Settlement :=
  match k with
  | .hotkey => Hotkey.toJson <$> Operation.typed k.path (Hotkey.record.format.decode v)
  | .file _ => Json.string <$> Operation.typed k.path (Format.text.decode v)

end DialogKind

end Hostlink
