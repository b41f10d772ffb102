import Hostlink.Json.Format
import Hostlink.Text.Parts

/-!
# Records of the preferences

The typed values of a preferences page, each with its form in JSON and its object:

* `Settings`, `Env` — the settings, with the members nobody knows, and facts on the host;
* `Shortcut`, `ShortcutDraft` — a shortcut, and one that has no id yet;
* `Extension`, `UpdateCheck` — an extension, and whether there is a newer one;
* `FileKind` — what may be chosen in a file browser.
-/

namespace Hostlink

open Json (Format Record Field Members)

/-! ## Settings -/

/-- Facts on the host. -/
structure Env where
  version : String
  apiVersion : String
  userHome : String
  autostartAllowed : Bool
  hotkeySupported : Bool
  deriving DecidableEq, Repr

namespace Env

/-- Nothing is known. -/
def blank : Env := ⟨"", "", "", false, false⟩

/-- The form of the facts; each may be missing. -/
def record : Record Env where
  title := "Env"
  blank := blank
  fields := [
    .withDefault "version" .text fun s e => { e with version := s },
    .withDefault "api_version" .text fun s e => { e with apiVersion := s },
    .withDefault "user_home" .text fun s e => { e with userHome := s },
    .withDefault "autostart_allowed" .flag fun b e => { e with autostartAllowed := b },
    .withDefault "hotkey_supported" .flag fun b e => { e with hotkeySupported := b }]
  extra := none

/-- The facts as an object. -/
def toJson (e : Env) : Json :=
  Json.ofMembers [("version", .string e.version), ("api_version", .string e.apiVersion),
    ("user_home", .string e.userHome), ("autostart_allowed", .bool e.autostartAllowed),
    ("hotkey_supported", .bool e.hotkeySupported)]

end Env

/-- The settings of the preferences. -/
structure Settings where
  hotkey : String
  showIndicator : Bool
  /-- A number or a text. -/
  showRecentApps : Json
  clearPreviousQuery : Bool
  theme : String
  /-- Directories that are passed over, with colons between them. -/
  blacklist : String
  autostart : Bool
  env : Env
  /-- Members of other names. -/
  extra : Members
  deriving DecidableEq, Repr

namespace Settings

/-- No settings. -/
def blank : Settings := ⟨"", false, .null, false, "", "", false, Env.blank, []⟩

/-- The form of the settings; each may be missing, and members of other names are kept. -/
def record : Record Settings where
  title := "Settings"
  blank := blank
  fields := [
    .withDefault "hotkey-show-app" .text fun s r => { r with hotkey := s },
    .withDefault "show-indicator-icon" .flag fun b r => { r with showIndicator := b },
    .withDefault "show-recent-apps" .json fun v r => { r with showRecentApps := v },
    .withDefault "clear-previous-query" .flag fun b r => { r with clearPreviousQuery := b },
    .withDefault "theme-name" .text fun s r => { r with theme := s },
    .withDefault "blacklisted-desktop-dirs" .text fun s r => { r with blacklist := s },
    .withDefault "autostart-enabled" .flag fun b r => { r with autostart := b },
    .withDefault "env" Env.record.format fun e r => { r with env := e }]
  extra := some fun key v r => { r with extra := r.extra.insert key v }

/-- The settings as an object. -/
def toJson (r : Settings) : Json :=
  Json.ofMembers ([("hotkey-show-app", .string r.hotkey),
    ("show-indicator-icon", .bool r.showIndicator), ("show-recent-apps", r.showRecentApps),
    ("clear-previous-query", .bool r.clearPreviousQuery), ("theme-name", .string r.theme),
    ("blacklisted-desktop-dirs", .string r.blacklist), ("autostart-enabled", .bool r.autostart),
    ("env", r.env.toJson)] ++ r.extra)

/-- The directories that are passed over. -/
def blacklistedDirs (r : Settings) : List String :=
  ((Text.splitWhere (· = ':') r.blacklist.toList).filter (· ≠ [])).map String.ofList

end Settings

/-! ## Shortcuts -/

/-- A keyword that stands for a command. -/
structure Shortcut where
  id : String
  name : String
  keyword : String
  cmd : String
  icon : Option String
  isDefaultSearch : Bool
  deriving DecidableEq, Repr

/-- A text, or `null`. -/
def optionalText (s : Option String) : Json :=
  match s with
  | some s => .string s
  | none => .null

namespace Shortcut

/-- The form of a shortcut. -/
def record : Record Shortcut where
  title := "Shortcut"
  blank := ⟨"", "", "", "", none, false⟩
  fields := [
    .needed "id" .text fun s r => { r with id := s },
    .needed "name" .text fun s r => { r with name := s },
    .needed "keyword" .text fun s r => { r with keyword := s },
    .needed "cmd" .text fun s r => { r with cmd := s },
    .withDefault "icon" (.optional .text) fun s r => { r with icon := s },
    .withDefault "is_default_search" .flag fun b r => { r with isDefaultSearch := b }]
  extra := none

/-- A shortcut as an object. -/
def toJson (r : Shortcut) : Json :=
  Json.ofMembers [("id", .string r.id), ("name", .string r.name), ("keyword", .string r.keyword),
    ("cmd", .string r.cmd), ("icon", optionalText r.icon),
    ("is_default_search", .bool r.isDefaultSearch)]

end Shortcut

/-- A shortcut without an id. -/
structure ShortcutDraft where
  name : String
  keyword : String
  cmd : String
  icon : Option String
  isDefaultSearch : Bool
  deriving DecidableEq, Repr

namespace ShortcutDraft

/-- A draft without an icon. -/
def plain (name keyword cmd : String) : ShortcutDraft := ⟨name, keyword, cmd, none, false⟩

/-- The form of a draft. -/
def record : Record ShortcutDraft where
  title := "ShortcutDraft"
  blank := plain "" "" ""
  fields := [
    .needed "name" .text fun s r => { r with name := s },
    .needed "keyword" .text fun s r => { r with keyword := s },
    .needed "cmd" .text fun s r => { r with cmd := s },
    .withDefault "icon" (.optional .text) fun s r => { r with icon := s },
    .withDefault "is_default_search" .flag fun b r => { r with isDefaultSearch := b }]
  extra := none

/-- A draft as an object; an icon that it does not have is left out. -/
def toJson (r : ShortcutDraft) : Json :=
  Json.ofMembers ([("name", .string r.name), ("keyword", .string r.keyword),
    ("cmd", .string r.cmd), ("is_default_search", .bool r.isDefaultSearch)] ++
    (r.icon.map fun s => ("icon", Json.string s)).toList)

end ShortcutDraft

/-! ## Extensions -/

/-- An extension. -/
structure Extension where
  id : String
  url : String
  name : String
  isEnabled : Bool
  updatedAt : Option String
  preferences : Json
  deriving DecidableEq, Repr

namespace Extension

/-- The form of an extension. -/
def record : Record Extension where
  title := "Extension"
  blank := ⟨"", "", "", false, none, .null⟩
  fields := [
    .needed "id" .text fun s r => { r with id := s },
    .withDefault "url" .text fun s r => { r with url := s },
    .withDefault "name" .text fun s r => { r with name := s },
    .withDefault "is_enabled" .flag fun b r => { r with isEnabled := b },
    .withDefault "updated_at" (.optional .text) fun s r => { r with updatedAt := s },
    .withDefault "preferences" .json fun v r => { r with preferences := v }]
  extra := none

/-- An extension as an object. -/
def toJson (r : Extension) : Json :=
  Json.ofMembers [("id", .string r.id), ("url", .string r.url), ("name", .string r.name),
    ("is_enabled", .bool r.isEnabled), ("updated_at", optionalText r.updatedAt),
    ("preferences", r.preferences)]

end Extension

/-- Whether there is a newer version of an extension, and which. -/
structure UpdateCheck where
  hasUpdate : Bool
  commit : Option String
  deriving DecidableEq, Repr

namespace UpdateCheck

/-- The form of a check. -/
def record : Record UpdateCheck where
  title := "UpdateCheck"
  blank := ⟨false, none⟩
  fields := [
    .needed "has_update" .flag fun b r => { r with hasUpdate := b },
    .withDefault "commit" (.optional .text) fun s r => { r with commit := s }]
  extra := none

/-- A check as an object. -/
def toJson (r : UpdateCheck) : Json :=
  Json.ofMembers [("has_update", .bool r.hasUpdate), ("commit", optionalText r.commit)]

end UpdateCheck

/-! ## Files -/

/-- What may be chosen in a file browser. -/
inductive FileKind where
  | image
  | any
  deriving DecidableEq, Repr

namespace FileKind

/-- Its name. -/
def name : FileKind → String
  | .image => "image"
  | .any => "any"

/-- The kind of a name, or of an object with only that name. -/
def format : Format FileKind := Format.choice [("image", .image), ("any", .any)]

end FileKind

end Hostlink
