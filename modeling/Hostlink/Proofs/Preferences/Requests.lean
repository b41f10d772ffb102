import Hostlink.Proofs.Preferences.Checks
import Hostlink.Proofs.Preferences.Records
import Hostlink.Proofs.RouteTable

/-!
# What requests do to preferences

Requests come with any path and any arguments. One that is refused has done nothing, and one that is answered has done
what its route is for.

* `Preferences.Deed` — what each route is for;
* `Preferences.Ends` — a handler is refused with all as it was, or has done its deed, and a rule for each of its steps;
* `Preferences.ends_getAll` and its siblings — **so do all handlers**;
* `Preferences.dispatch_cases` — **and so does every request**;
* `Preferences.after`, `Preferences.answers` — requests one after another;
* `Preferences.refused_undone` — **a request that is refused might as well not have come**.
-/

namespace Hostlink

open Json (Members)
open RouteTable (normalize)

namespace Preferences

/-! ## Deeds -/

/-- The routes by which nothing is changed. -/
def lookRoutes : List String :=
  ["get/all", "show/hotkey-dialog", "show/file-browser", "open/web-url", "open/extensions-dir", "shortcut/get-all",
    "extension/get-all", "extension/check-updates"]

/-- What a request that is answered has done, by its route: its answer, and what is kept after it. -/
inductive Deed (args : Args) (p : Preferences) : String → Json → Preferences → Prop
  | looked {route : String} {v : Json} (hroute : route ∈ lookRoutes) : Deed args p route v p
  | stored {route key : String} {v : Json} (hroute : route ∈ ["set", "set/hotkey-show-app"]) :
    Deed args p route .null { p with settings := p.settings.insert key v }
  | addedShortcut {ms : Members} (hms : args.record? = some ms) :
    Deed args p "shortcut/add" (.object (ms.insert "id" (.string (newId p.nextId))))
      { p with shortcuts := p.shortcuts ++ [ms.insert "id" (.string (newId p.nextId))], nextId := p.nextId + 1 }
  | updatedShortcut {ms old : Members} {id : String} (hms : args.record? = some ms) (hid : idOf ms = some id)
    (hold : p.shortcuts.find? (idOf · = some id) = some old) :
    Deed args p "shortcut/update" (.object (old.union ms))
      { p with shortcuts := updateFirst id (·.union ms) p.shortcuts }
  | removedShortcut {id : String} {old : Members} (hid : args.find? "id" 0 = some (.string id))
    (hold : p.shortcuts.find? (idOf · = some id) = some old) :
    Deed args p "shortcut/remove" .null { p with shortcuts := without id p.shortcuts }
  | addedExtension {ms : Members} {url : String} (hurl : args.find? "url" 0 = some (.string url))
    (hid : idOf ms = some s!"com.example.{extensionName url}") :
    Deed args p "extension/add" (.object ms) { p with extensions := p.extensions ++ [ms] }
  | changedExtension {route id key : String} {old : Members} {v answer : Json}
    (hroute : route ∈ ["extension/update-prefs", "extension/update-ext", "extension/toggle-enabled"])
    (hid : args.find? "id" 0 = some (.string id)) (hold : p.extensions.find? (idOf · = some id) = some old)
    (hkey : key ≠ "id") :
    Deed args p route answer { p with extensions := updateFirst id (·.insert key v) p.extensions }
  | removedExtension {id : String} {old : Members} (hid : args.find? "id" 0 = some (.string id))
    (hold : p.extensions.find? (idOf · = some id) = some old) :
    Deed args p "extension/remove" .null { p with extensions := without id p.extensions }

/-- An action that is refused with all as it was, or is answered and has done what `D` says. -/
def Ends (p : Preferences) (D : Json → Preferences → Prop) (x : Action Preferences Json) : Prop :=
  x.Runs p fun r q => match r with
    | .ok v => D v q
    | .error _ => q = p

namespace Ends

variable {p : Preferences} {D : Json → Preferences → Prop} {args : Args} {key id : String} {index : Nat}

theorem answer {v : Json} (h : D v p) : Ends p D (pure v) := (Action.runs_pure v).mpr h

theorem refuse (e : HostError) : Ends p D (throw e) := (Action.runs_throw e).mpr rfl

theorem get {f : Preferences → Action Preferences Json} (h : Ends p D (f p)) : Ends p D (get >>= f) :=
  Action.runs_get_bind.mpr h

theorem required {f : Json → Action Preferences Json} (h : ∀ v, args.find? key index = some v → Ends p D (f v)) :
    Ends p D (required args key index >>= f) :=
  runs_required (fun _ => rfl) h

theorem requiredText {f : String → Action Preferences Json}
    (h : ∀ s, args.find? key index = some (.string s) → Ends p D (f s)) :
    Ends p D (requiredText args key index >>= f) :=
  runs_requiredText (fun _ => rfl) fun s hs _ => h s hs

theorem record {f : Members → Action Preferences Json} (h : ∀ ms, args.record? = some ms → Ends p D (f ms)) :
    Ends p D (recordOf args >>= f) :=
  runs_recordOf (fun _ => rfl) h

theorem findExtension {f : Members → Action Preferences Json}
    (h : ∀ ms, p.extensions.find? (idOf · = some id) = some ms → Ends p D (f ms)) :
    Ends p D (findExtension id >>= f) :=
  runs_findExtension (fun _ => rfl) h

/-- What is written last is not refused any more. -/
theorem write {g : Preferences → Preferences} {v : Json} (h : D v (g p)) :
    Ends p D (modify g >>= fun _ => pure v) :=
  (Action.runs_modify_bind g).mpr h

/-- An extension that is changed is found again, for it has its id still. -/
theorem putThenFind {key : String} {v : Json} {old : Members} (hkey : key ≠ "id")
    (hold : p.extensions.find? (idOf · = some id) = some old)
    (h : ∀ ms, D (.object ms) { p with extensions := updateFirst id (·.insert key v) p.extensions }) :
    Ends p D (putExtension id key v >>= fun _ => Preferences.findExtension id >>= fun ms => pure (.object ms)) := by
  refine (Action.runs_modify_bind _).mpr ?_
  refine runs_findExtension (fun hnone => ?_) fun ms _ => ?_
  · exact absurd hnone (find?_updateFirst_ne_none hold ((idOf_insert hkey _ old).trans (idOf_of_find? hold)))
  · exact (Action.runs_pure _).mpr (h ms)

/-- An action that ends so comes to one of the two. -/
theorem cases {x : Action Preferences Json} (h : Ends p D x) :
    (∃ e, x.run.run p = (.error e, p)) ∨ ∃ v q, x.run.run p = (.ok v, q) ∧ D v q := by
  rw [Ends, Action.Runs] at h
  rcases hrun : x.run.run p with ⟨e | v, q⟩
  · rw [hrun] at h
    exact .inl ⟨e, congrArg (Prod.mk _) h⟩
  · rw [hrun] at h
    exact .inr ⟨v, q, rfl, h⟩

end Ends

/-! ## Handlers -/

section

variable (args : Args) (p : Preferences)

theorem ends_getAll : Ends p (Deed args p "get/all") (getAll args) :=
  .get (.answer (.looked (by decide)))

theorem ends_setAny : Ends p (Deed args p "set") (setAny args) :=
  .requiredText fun _ _ => .required fun _ _ => .write (.stored (by decide))

theorem ends_setHotkey : Ends p (Deed args p "set/hotkey-show-app") (setHotkey args) :=
  .requiredText fun _ _ => .write (.stored (by decide))

theorem ends_showHotkeyDialog : Ends p (Deed args p "show/hotkey-dialog") (showHotkeyDialog args) :=
  .requiredText fun _ _ => .answer (.looked (by decide))

theorem ends_showFileBrowser : Ends p (Deed args p "show/file-browser") (showFileBrowser args) :=
  .requiredText fun _ _ => .requiredText fun _ _ => .answer (.looked (by decide))

theorem ends_openWebUrl : Ends p (Deed args p "open/web-url") (openWebUrl args) := by
  refine .requiredText fun url _ => ?_
  split
  · exact .answer (.looked (by decide))
  · exact .refuse _

theorem ends_openExtensionsDir : Ends p (Deed args p "open/extensions-dir") (openExtensionsDir args) :=
  .answer (.looked (by decide))

theorem ends_getShortcuts : Ends p (Deed args p "shortcut/get-all") (getShortcuts args) :=
  .get (.answer (.looked (by decide)))

theorem ends_addShortcut : Ends p (Deed args p "shortcut/add") (addShortcut args) :=
  .record fun _ hms => .get (.write (.addedShortcut hms))

theorem ends_updateShortcut : Ends p (Deed args p "shortcut/update") (updateShortcut args) := by
  refine .record fun ms hms => ?_
  split
  · exact .refuse _
  · next id hid =>
    refine .get ?_
    split
    · exact .refuse _
    · next old hold => exact .write (.updatedShortcut hms hid hold)

/-- As many are left as there were exactly if there was none of the id, and then all are left. -/
theorem ends_removeShortcut : Ends p (Deed args p "shortcut/remove") (removeShortcut args) := by
  refine .requiredText fun id hid => .get ?_
  refine (Action.runs_modify_bind _).mpr (Action.runs_get_bind.mpr ?_)
  split
  · next hlength =>
    have hall : without id p.shortcuts = p.shortcuts :=
      List.filter_eq_self.mpr (List.length_filter_eq_length_iff.mp hlength)
    rw [hall]
    exact (Action.runs_throw _).mpr rfl
  · next hlength =>
    cases hold : p.shortcuts.find? (idOf · = some id) with
    | none => exact absurd (congrArg List.length (without_of_find?_eq_none hold)) hlength
    | some old => exact (Action.runs_pure _).mpr (.removedShortcut hid hold)

theorem ends_getExtensions : Ends p (Deed args p "extension/get-all") (getExtensions args) :=
  .get (.answer (.looked (by decide)))

theorem ends_addExtension : Ends p (Deed args p "extension/add") (addExtension args) := by
  refine .requiredText fun url hurl => ?_
  dsimp only
  split
  · exact .refuse _
  · refine .write (.addedExtension hurl ?_)
    rw [idOf, Members.lookup_ofList]
    rfl

theorem ends_updateExtensionPrefs : Ends p (Deed args p "extension/update-prefs") (updateExtensionPrefs args) :=
  .requiredText fun _ hid => .required fun _ _ => .findExtension fun _ hold =>
    .write (.changedExtension (by decide) hid hold (by decide))

theorem ends_checkExtension : Ends p (Deed args p "extension/check-updates") (checkExtension args) :=
  .requiredText fun _ _ => .findExtension fun _ _ => .answer (.looked (by decide))

theorem ends_updateExtension : Ends p (Deed args p "extension/update-ext") (updateExtension args) :=
  have hkey : "updated_at" ≠ "id" := by decide
  .requiredText fun _ hid => .findExtension fun _ hold =>
    .putThenFind hkey hold fun _ => .changedExtension (by decide) hid hold hkey

theorem ends_toggleExtension : Ends p (Deed args p "extension/toggle-enabled") (toggleExtension args) := by
  refine .requiredText fun _ hid => .required fun v _ => ?_
  split
  · exact .refuse _
  · exact .findExtension fun _ hold => .write (.changedExtension (by decide) hid hold (by decide))

theorem ends_removeExtension : Ends p (Deed args p "extension/remove") (removeExtension args) :=
  .requiredText fun _ hid => .findExtension fun _ hold => .write (.removedExtension hid hold)

end

/-! ## Requests -/

theorem ends_of_mem (args : Args) (p : Preferences) :
    ∀ route ∈ handlers, Ends p (Deed args p (normalize route.1)) (route.2 args) := by
  rw [handlers]
  simp only [List.forall_mem_cons, List.not_mem_nil, false_implies, implies_true, and_true]
  exact ⟨ends_getAll args p, ends_setAny args p, ends_setHotkey args p, ends_showHotkeyDialog args p,
    ends_showFileBrowser args p, ends_openWebUrl args p, ends_openExtensionsDir args p, ends_getShortcuts args p,
    ends_addShortcut args p, ends_updateShortcut args p, ends_removeShortcut args p, ends_getExtensions args p,
    ends_addExtension args p, ends_updateExtensionPrefs args p, ends_checkExtension args p,
    ends_updateExtension args p, ends_toggleExtension args p, ends_removeExtension args p⟩

/-- **A request is refused and has done nothing, or it is answered and has done what its route is for.** -/
theorem dispatch_cases (path : String) (args : Args) (p : Preferences) :
    (∃ e, routes.dispatch path args p = (.error e, p)) ∨
      ∃ v q, routes.dispatch path args p = (.ok v, q) ∧ Deed args p (normalize path) v q := by
  rw [RouteTable.dispatch]
  cases hfound : routes.handler? path with
  | none => exact .inl ⟨_, rfl⟩
  | some h =>
    obtain ⟨route, hmem, hpath, rfl⟩ := RouteTable.mem_of_handler? hfound
    have hends := ends_of_mem args p route hmem
    rw [hpath] at hends
    exact hends.cases

/-! ## One after another -/

/-- What is kept after requests. -/
def after (p : Preferences) (requests : List (String × Args)) : Preferences :=
  requests.foldl (fun p request => (routes.dispatch request.1 request.2 p).2) p

/-- What requests are answered, one after another. -/
def answers (p : Preferences) : List (String × Args) → List (Except HostError Json)
  | [] => []
  | request :: requests =>
    (routes.dispatch request.1 request.2 p).1 :: (routes.dispatch request.1 request.2 p).2.answers requests

theorem after_cons (p : Preferences) (request : String × Args) (requests : List (String × Args)) :
    p.after (request :: requests) = (routes.dispatch request.1 request.2 p).2.after requests :=
  List.foldl_cons ..

theorem after_append (p : Preferences) (requests later : List (String × Args)) :
    p.after (requests ++ later) = (p.after requests).after later :=
  List.foldl_append

theorem answers_append (p : Preferences) (requests later : List (String × Args)) :
    p.answers (requests ++ later) = p.answers requests ++ (p.after requests).answers later := by
  induction requests generalizing p with
  | nil => rfl
  | cons request requests ih =>
    rw [List.cons_append, answers, ih, answers, after_cons, List.cons_append]

/-- **A request that is refused might as well not have come.** Whatever came before it, all that is kept is as it was,
and whatever comes later is answered as if it had not come, and leaves the same. -/
theorem refused_undone {before : List (String × Args)} {path : String} {args : Args} {e : HostError}
    (hrefused : (routes.dispatch path args (initial.after before)).1 = .error e) :
    (routes.dispatch path args (initial.after before)).2 = initial.after before ∧
      ∀ later, initial.after (before ++ (path, args) :: later) = initial.after (before ++ later) ∧
        ∃ answered, initial.answers (before ++ later) = initial.answers before ++ answered ∧
          initial.answers (before ++ (path, args) :: later) = initial.answers before ++ .error e :: answered := by
  have hsame : (routes.dispatch path args (initial.after before)).2 = initial.after before := by
    rcases dispatch_cases path args (initial.after before) with ⟨e', hdispatch⟩ | ⟨v, q, hdispatch, -⟩
    · rw [hdispatch]
    · rw [hdispatch] at hrefused
      cases hrefused
  refine ⟨hsame, fun later => ⟨?_, (initial.after before).answers later, answers_append _ _ _, ?_⟩⟩
  · rw [after_append, after_append, after_cons, hsame]
  · rw [answers_append, answers, hsame, hrefused]

/-- A shortcut that is added, one that is not there and so is not removed, and another that is added. -/
theorem refused_undone_removal :
    initial.answers [("/shortcut/add", .named [("name", .string "Wiki")]),
        ("/shortcut/remove", .named [("id", .string "new-id-7")]), ("/shortcut/add", .named [])] =
      [.ok (Json.ofMembers [("name", .string "Wiki"), ("id", .string "new-id-1")]),
        .error (notFound "shortcut" "new-id-7"), .ok (Json.ofMembers [("id", .string "new-id-2")])] := by
  have hrefused : (routes.dispatch "/shortcut/remove" (.named [("id", .string "new-id-7")])
      (initial.after [("/shortcut/add", .named [("name", .string "Wiki")])])).1 =
        .error (notFound "shortcut" "new-id-7") := rfl
  obtain ⟨-, hlater⟩ := refused_undone hrefused
  obtain ⟨-, answered, hwithout, hwith⟩ := hlater [("/shortcut/add", .named [])]
  have hanswered : [.ok (Json.ofMembers [("id", .string "new-id-2")])] = answered :=
    (List.cons_inj_right _).mp hwithout
  rw [← hanswered] at hwith
  exact hwith

end Preferences

end Hostlink
