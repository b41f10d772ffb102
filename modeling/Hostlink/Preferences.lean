import Hostlink.RouteTable
import Hostlink.Text.Parts

/-!
# A host of preferences

A host that keeps settings, shortcuts and extensions in memory and answers all requests of a
preferences page.

* `Preferences` — what it keeps, and what it starts with;
* `Preferences.routes` — its route table.

A handler checks its arguments before it changes anything; only the one that removes a shortcut sees by what it has
removed whether there was any.
-/

namespace Hostlink

open Json (Members)

/-- What the host keeps. -/
structure Preferences where
  settings : Members
  shortcuts : List Members
  extensions : List Members
  /-- The number of the next shortcut that is added. -/
  nextId : Nat
  deriving DecidableEq, Repr

namespace Preferences

/-! ## The start -/

/-- Settings at the start. -/
def initialSettings : Members := Members.ofList [
  ("hotkey-show-app", .string "<Primary>space"),
  ("show-indicator-icon", .bool true),
  ("show-recent-apps", .string "3"),
  ("clear-previous-query", .bool true),
  ("theme-name", .string "light"),
  ("blacklisted-desktop-dirs", .string "/usr/share/locale:/usr/share/app-install"),
  ("autostart-enabled", .bool false)]

/-- The shortcut at the start. -/
def initialShortcut : Members := Members.ofList [
  ("id", .string "google-search"),
  ("name", .string "Google Search"),
  ("keyword", .string "g"),
  ("cmd", .string "https://google.com/search?q=%s"),
  ("icon", .null),
  ("is_default_search", .bool true)]

/-- The extension at the start. -/
def initialExtension : Members := Members.ofList [
  ("id", .string "com.github.ulauncher.ulauncher-timer"),
  ("url", .string "https://github.com/Ulauncher/ulauncher-timer"),
  ("name", .string "Timer"),
  ("is_enabled", .bool true),
  ("updated_at", .string "2026-03-01T10:00:00"),
  ("preferences", Json.ofMembers [("keyword",
    Json.ofMembers [("type", .string "keyword"), ("value", .string "ti")])])]

/-- What the host starts with. -/
def initial : Preferences := ⟨initialSettings, [initialShortcut], [initialExtension], 1⟩

/-- What the host says of itself. -/
def env : Json := Json.ofMembers [
  ("version", .string "5.15.0"),
  ("api_version", .string "2.0"),
  ("user_home", .string "/home/user"),
  ("autostart_allowed", .bool true),
  ("hotkey_supported", .bool true)]

/-! ## Arguments -/

/-- An argument that cannot be used. -/
def invalid (message : String) : HostError := .ofType message "ValueError"

/-- There is no record of an id. -/
def notFound (kind id : String) : HostError := .ofType s!"No {kind} with id '{id}'" "LookupError"

/-- An argument that has to be there. -/
def required (args : Args) (key : String) (index : Nat) : Action Preferences Json :=
  match args.find? key index with
  | some v => pure v
  | none => throw (invalid s!"missing argument '{key}'")

/-- A text that has to be there and not be empty. -/
def requiredText (args : Args) (key : String) (index : Nat) : Action Preferences String :=
  match ((args.find? key index).bind Json.asString?).filter (· ≠ "") with
  | some s => pure s
  | none => throw (invalid s!"missing argument '{key}'")

/-- A record: all named arguments, or an object. -/
def recordOf : Args → Action Preferences Members
  | .named pairs => pure (Members.ofList pairs)
  | .positional (.object ms :: _) => pure ms
  | .positional _ => throw (invalid "expected an object argument")
  | .none => throw (invalid "missing record argument")

/-- The id of a record, if it is a text. -/
def idOf (ms : Members) : Option String := (Members.lookup "id" ms).bind Json.asString?

/-- Changes the first record of an id. -/
def updateFirst (id : String) (f : Members → Members) : List Members → List Members
  | [] => []
  | ms :: rest => if idOf ms = some id then f ms :: rest else ms :: updateFirst id f rest

/-- The records of other ids. -/
def without (id : String) (records : List Members) : List Members :=
  records.filter (idOf · ≠ some id)

/-! ## Settings -/

/-- All settings, with what the host says of itself. -/
def getAll : RouteHandler Preferences := fun _ => do
  let p ← get
  pure (.object (p.settings.insert "env" env))

/-- Stores a setting. -/
def store (key : String) (v : Json) : Action Preferences Json := do
  modify fun p => { p with settings := p.settings.insert key v }
  pure .null

/-- Stores a setting of any name. -/
def setAny : RouteHandler Preferences := fun args => do
  let key ← requiredText args "property" 0
  let v ← required args "value" 1
  store key v

/-- Stores the key combination that shows the application. -/
def setHotkey : RouteHandler Preferences := fun args => do
  let s ← requiredText args "value" 0
  store "hotkey-show-app" (.string s)

/-! ## Dialogs and the desktop -/

/-- Shows a dialog, which is answered by a push. -/
def showHotkeyDialog : RouteHandler Preferences := fun args => do
  let _ ← requiredText args "name" 0
  pure .null

/-- Shows a file browser, which is answered by a push. -/
def showFileBrowser : RouteHandler Preferences := fun args => do
  let _ ← requiredText args "type" 0
  let _ ← requiredText args "name" 1
  pure .null

/-- Does a text hold `://`? -/
def isWebUrl (url : String) : Bool := Text.holds "://".toList url.toList

/-- Opens a page of the web. -/
def openWebUrl : RouteHandler Preferences := fun args => do
  let url ← requiredText args "url" 0
  if isWebUrl url then pure .null else throw (invalid s!"not a web url: {url}")

/-- Opens the directory of extensions. -/
def openExtensionsDir : RouteHandler Preferences := fun _ => pure .null

/-! ## Shortcuts -/

/-- All shortcuts. -/
def getShortcuts : RouteHandler Preferences := fun _ => do
  let p ← get
  pure (.array (p.shortcuts.map .object))

/-- The id of the shortcut of a number. -/
def newId (n : Nat) : String := s!"new-id-{n}"

/-- Adds a shortcut under a fresh id. -/
def addShortcut : RouteHandler Preferences := fun args => do
  let ms ← recordOf args
  let p ← get
  let ms := ms.insert "id" (.string (newId p.nextId))
  modify fun p => { p with shortcuts := p.shortcuts ++ [ms], nextId := p.nextId + 1 }
  pure (.object ms)

/-- Overrides members of the shortcut of an id. -/
def updateShortcut : RouteHandler Preferences := fun args => do
  let ms ← recordOf args
  match idOf ms with
  | none => throw (invalid "shortcut has no id")
  | some id => do
    let p ← get
    match p.shortcuts.find? (idOf · = some id) with
    | none => throw (notFound "shortcut" id)
    | some old => do
      modify fun p => { p with shortcuts := updateFirst id (·.union ms) p.shortcuts }
      pure (.object (old.union ms))

/-- Removes the shortcut of an id. -/
def removeShortcut : RouteHandler Preferences := fun args => do
  let id ← requiredText args "id" 0
  let before ← get
  modify fun p => { p with shortcuts := without id p.shortcuts }
  let p ← get
  if p.shortcuts.length = before.shortcuts.length then throw (notFound "shortcut" id)
  else pure .null

/-! ## Extensions -/

/-- All extensions. -/
def getExtensions : RouteHandler Preferences := fun _ => do
  let p ← get
  pure (.array (p.extensions.map .object))

/-- The name of an extension: the last part of its URL. -/
def extensionName (url : String) : String :=
  let trimmed := url.toList.reverse.dropWhile (· = '/')
  String.ofList (trimmed.takeWhile (· ≠ '/')).reverse

/-- Adds the extension of a URL. -/
def addExtension : RouteHandler Preferences := fun args => do
  let url ← requiredText args "url" 0
  let name := extensionName url
  if name = "" then throw (invalid s!"cannot derive an extension id from {url}")
  else do
    let ms := Members.ofList [("id", .string s!"com.example.{name}"), ("url", .string url),
      ("name", .string name), ("is_enabled", .bool true), ("preferences", .object [])]
    modify fun p => { p with extensions := p.extensions ++ [ms] }
    pure (.object ms)

/-- The first extension of an id. -/
def findExtension (id : String) : Action Preferences Members := do
  let p ← get
  match p.extensions.find? (idOf · = some id) with
  | some ms => pure ms
  | none => throw (notFound "extension" id)

/-- Puts a member into the first extension of an id. -/
def putExtension (id key : String) (v : Json) : Action Preferences Unit :=
  modify fun p => { p with extensions := updateFirst id (·.insert key v) p.extensions }

/-- Stores the preferences of an extension. -/
def updateExtensionPrefs : RouteHandler Preferences := fun args => do
  let id ← requiredText args "id" 0
  let data ← required args "data" 1
  let _ ← findExtension id
  putExtension id "preferences" data
  pure .null

/-- Says whether there is a newer version of an extension. -/
def checkExtension : RouteHandler Preferences := fun args => do
  let id ← requiredText args "id" 0
  let _ ← findExtension id
  pure (Json.ofMembers [("has_update", .bool false), ("commit", .string "0000000")])

/-- Updates an extension. -/
def updateExtension : RouteHandler Preferences := fun args => do
  let id ← requiredText args "id" 0
  let _ ← findExtension id
  putExtension id "updated_at" (.string "2026-10-18T00:00:00")
  let ms ← findExtension id
  pure (.object ms)

/-- Switches an extension on or off. -/
def toggleExtension : RouteHandler Preferences := fun args => do
  let id ← requiredText args "id" 0
  let v ← required args "enabled" 1
  match v.asBool? with
  | none => throw (invalid "'enabled' must be a boolean")
  | some enabled => do
    let _ ← findExtension id
    putExtension id "is_enabled" (.bool enabled)
    pure .null

/-- Removes the extensions of an id. -/
def removeExtension : RouteHandler Preferences := fun args => do
  let id ← requiredText args "id" 0
  let _ ← findExtension id
  modify fun p => { p with extensions := without id p.extensions }
  pure .null

/-! ## The table -/

/-- All handlers under their paths. -/
def handlers : List (String × RouteHandler Preferences) := [
  ("/get/all", getAll),
  ("/set", setAny),
  ("/set/hotkey-show-app", setHotkey),
  ("/show/hotkey-dialog", showHotkeyDialog),
  ("/show/file-browser", showFileBrowser),
  ("/open/web-url", openWebUrl),
  ("/open/extensions-dir", openExtensionsDir),
  ("/shortcut/get-all", getShortcuts),
  ("/shortcut/add", addShortcut),
  ("/shortcut/update", updateShortcut),
  ("/shortcut/remove", removeShortcut),
  ("/extension/get-all", getExtensions),
  ("/extension/add", addExtension),
  ("/extension/update-prefs", updateExtensionPrefs),
  ("/extension/check-updates", checkExtension),
  ("/extension/update-ext", updateExtension),
  ("/extension/toggle-enabled", toggleExtension),
  ("/extension/remove", removeExtension)]

/-- The routes of the host. -/
def routes : RouteTable Preferences :=
  handlers.foldl (fun t h => t.withRoute h.1 h.2) .empty

end Preferences

end Hostlink
