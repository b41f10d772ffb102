import Hostlink.Proofs.Preferences.Requests

/-!
# Extensions under their ids

An extension has its id from the last part of its URL, and nobody asks whether another has that id already. So
extensions are told apart by their ids until one is added again; and as long as they are, whoever names one names one
extension.

* `Preferences.AddsAgain` — a request that adds an extension under an id that is taken;
* `Preferences.Deed.extensionIds` — what becomes of the ids, `Preferences.nodup_dispatch_iff`: they stay apart exactly
  if none is added again;
* `Preferences.Handled` — what each route that names an extension makes of it;
* `Preferences.Addresses` — a request is for one extension, and for no other;
* `Preferences.extensions_keyed` — **extensions are kept under ids as long as none is added again**;
* `Preferences.extension_added_again` — one that is.
-/

namespace Hostlink.Preferences

open Json (Members)
open RouteTable (normalize)

/-! ## Ids -/

/-- The ids of all extensions, in their order. -/
def extensionIds (p : Preferences) : List (Option String) := p.extensions.map idOf

/-- A request is answered with an extension that it has added under an id that was taken. -/
def AddsAgain (p : Preferences) (path : String) (args : Args) : Prop :=
  normalize path = "extension/add" ∧
    ∃ ms, (routes.dispatch path args p).1 = .ok (.object ms) ∧ idOf ms ∈ p.extensionIds

section

variable {p q : Preferences} {args : Args} {route : String} {v : Json}

/-- The route that adds an extension adds its id; all others leave the ids, or take some of them out. -/
theorem Deed.extensionIds (hdeed : Deed args p route v q) :
    (route = "extension/add" ∧ ∃ ms, v = .object ms ∧ q.extensionIds = p.extensionIds ++ [idOf ms]) ∨
      (route ≠ "extension/add" ∧ q.extensionIds.Sublist p.extensionIds) := by
  cases hdeed with
  | looked hroute | stored hroute =>
    right
    refine ⟨?_, List.Sublist.refl _⟩
    rintro rfl
    exact absurd hroute (by decide)
  | addedShortcut | updatedShortcut | removedShortcut => exact .inr ⟨by decide, List.Sublist.refl _⟩
  | addedExtension =>
    left
    refine ⟨rfl, _, rfl, ?_⟩
    simp [Preferences.extensionIds]
  | @changedExtension _ id key _ value _ hroute hid hold hkey =>
    right
    -- the extension that is changed keeps its id
    have hsame : (updateFirst id (·.insert key value) p.extensions).map idOf = p.extensions.map idOf :=
      map_idOf_updateFirst fun old hfound => (idOf_insert hkey value old).trans (idOf_of_find? hfound)
    constructor
    · rintro rfl
      exact absurd hroute (by decide)
    · rw [Preferences.extensionIds, hsame]
      exact List.Sublist.refl _
  | removedExtension => exact .inr ⟨by decide, List.filter_sublist.map idOf⟩

/-- Every extension has a text for an id, and stays so. -/
theorem Deed.identified (hdeed : Deed args p route v q)
    (h : ∀ ms ∈ p.extensions, ∃ id, idOf ms = some id) : ∀ ms ∈ q.extensions, ∃ id, idOf ms = some id := by
  intro ms hms
  cases hdeed with
  | looked | stored | addedShortcut | updatedShortcut | removedShortcut => exact h ms hms
  | addedExtension hurl hid =>
    rcases List.mem_append.mp hms with hms | hms
    · exact h ms hms
    · obtain rfl := List.mem_singleton.mp hms
      exact ⟨_, hid⟩
  | changedExtension hroute hid hold hkey =>
    rcases mem_updateFirst hms with hms | ⟨old, hfound, rfl⟩
    · exact h ms hms
    · exact ⟨_, (idOf_insert hkey _ old).trans (idOf_of_find? hfound)⟩
  | removedExtension => exact h ms (List.mem_filter.mp hms).1

/-- **Ids stay apart exactly if none is added again.** -/
theorem nodup_dispatch_iff (h : p.extensionIds.Nodup) (path : String) :
    (routes.dispatch path args p).2.extensionIds.Nodup ↔ ¬ AddsAgain p path args := by
  rcases dispatch_cases path args p with ⟨e, hdispatch⟩ | ⟨v, q, hdispatch, hdeed⟩
  · have hnot : ¬ AddsAgain p path args := by
      rintro ⟨-, ms, hanswer, -⟩
      rw [hdispatch] at hanswer
      cases hanswer
    rw [hdispatch]
    exact iff_of_true h hnot
  · rw [hdispatch]
    rcases hdeed.extensionIds with ⟨hroute, ms, rfl, hids⟩ | ⟨hroute, hids⟩
    · have hagain : AddsAgain p path args ↔ idOf ms ∈ p.extensionIds := by
        constructor
        · rintro ⟨-, ms', hanswer, hmem⟩
          rw [hdispatch] at hanswer
          obtain rfl := Json.object.inj (Except.ok.inj hanswer)
          exact hmem
        · intro hmem
          exact ⟨hroute, ms, by rw [hdispatch], hmem⟩
      show q.extensionIds.Nodup ↔ _
      rw [hagain, hids, ← List.concat_eq_append, List.nodup_concat]
      simp [h]
    · have hnot : ¬ AddsAgain p path args := fun hagain => hroute hagain.1
      exact iff_of_true (hids.nodup h) hnot

theorem identified_dispatch (h : ∀ ms ∈ p.extensions, ∃ id, idOf ms = some id) (path : String) (args : Args) :
    ∀ ms ∈ (routes.dispatch path args p).2.extensions, ∃ id, idOf ms = some id := by
  rcases dispatch_cases path args p with ⟨e, hdispatch⟩ | ⟨v, q, hdispatch, hdeed⟩
  · rw [hdispatch]
    exact h
  · rw [hdispatch]
    exact hdeed.identified h

end

/-! ## One after another -/

theorem after_concat (p : Preferences) (requests : List (String × Args)) (request : String × Args) :
    p.after (requests ++ [request]) = (routes.dispatch request.1 request.2 (p.after requests)).2 :=
  after_append p requests [request]

theorem identified_after (requests : List (String × Args)) :
    ∀ ms ∈ (initial.after requests).extensions, ∃ id, idOf ms = some id := by
  induction requests using List.reverseRecOn with
  | nil =>
    intro ms hms
    obtain rfl := List.mem_singleton.mp hms
    exact ⟨"com.github.ulauncher.ulauncher-timer", by decide⟩
  | append_singleton requests request ih =>
    rw [after_concat]
    exact identified_dispatch ih request.1 request.2

/-- Ids are apart at all times exactly if none is added again at any time. -/
theorem nodup_after_iff (requests : List (String × Args)) :
    (∀ earlier, earlier <+: requests → (initial.after earlier).extensionIds.Nodup) ↔
      ∀ earlier request, earlier ++ [request] <+: requests →
        ¬ AddsAgain (initial.after earlier) request.1 request.2 := by
  constructor
  · intro hall earlier request hprefix
    have hbefore := hall earlier ((List.prefix_append earlier [request]).trans hprefix)
    have hafter := hall _ hprefix
    rw [after_concat] at hafter
    exact (nodup_dispatch_iff hbefore request.1).mp hafter
  · intro hnever earlier hprefix
    induction earlier using List.reverseRecOn with
    | nil => exact List.nodup_singleton _
    | append_singleton earlier request ih =>
      have hbefore := ih ((List.prefix_append earlier [request]).trans hprefix)
      rw [after_concat]
      exact (nodup_dispatch_iff hbefore request.1).mpr (hnever earlier request hprefix)

/-! ## The extension that a request names -/

/-- The routes that name an extension. -/
def namingRoutes : List String :=
  ["extension/update-prefs", "extension/check-updates", "extension/update-ext", "extension/toggle-enabled",
    "extension/remove"]

/-- What a route puts in the place of the extension that a request names. -/
inductive Handled (args : Args) (old : Members) : String → List Members → Prop
  | stored {data : Json} (hdata : args.find? "data" 1 = some data) :
    Handled args old "extension/update-prefs" [old.insert "preferences" data]
  | checked : Handled args old "extension/check-updates" [old]
  | updated : Handled args old "extension/update-ext" [old.insert "updated_at" (.string "2026-10-18T00:00:00")]
  | switched {enabled : Bool} (henabled : args.find? "enabled" 1 = some (.bool enabled)) :
    Handled args old "extension/toggle-enabled" [old.insert "is_enabled" (.bool enabled)]
  | removed : Handled args old "extension/remove" []

/-- A request is for the one extension of the id that it names, which is handled where it stands; all others have
other ids, and stay. -/
def Addresses (args : Args) (route : String) (records left : List Members) : Prop :=
  ∃ id front old back new, args.find? "id" 0 = some (.string id) ∧ records = front ++ old :: back ∧
    idOf old = some id ∧ (∀ other ∈ front ++ back, idOf other ≠ some id) ∧
    Handled args old route new ∧ left = front ++ new ++ back

section

variable {p : Preferences} {args : Args} {route id : String} {old : Members} (hnodup : p.extensionIds.Nodup)
include hnodup

/-- The extension of an id stands between those of others. -/
theorem split_extensions (hold : p.extensions.find? (idOf · = some id) = some old) :
    ∃ front back, p.extensions = front ++ old :: back ∧ (∀ other ∈ front ++ back, idOf other ≠ some id) ∧
      (∀ f, updateFirst id f p.extensions = front ++ f old :: back) ∧ without id p.extensions = front ++ back := by
  have hid := idOf_of_find? hold
  obtain ⟨front, back, hsplit, hupdate⟩ := updateFirst_split hold
  have hothers : ∀ other ∈ front ++ back, idOf other ≠ some id := by
    rw [extensionIds, hsplit, List.map_append, List.map_cons, List.nodup_middle, List.nodup_cons,
      ← List.map_append, hid] at hnodup
    intro other hother heq
    exact hnodup.1 (heq ▸ List.mem_map_of_mem hother)
  refine ⟨front, back, hsplit, hothers, hupdate, ?_⟩
  have hkeep : ∀ records : List Members, (∀ other ∈ records, idOf other ≠ some id) → without id records = records :=
    fun records h => List.filter_eq_self.mpr fun other hother => decide_eq_true (h other hother)
  have hfront := hkeep front fun other h => hothers other (List.mem_append_left _ h)
  have hback := hkeep back fun other h => hothers other (List.mem_append_right _ h)
  rw [hsplit, without, List.filter_append, List.filter_cons_of_neg (by simp [hid])]
  exact congrArg₂ _ hfront hback

variable (hid : args.find? "id" 0 = some (.string id)) (hold : p.extensions.find? (idOf · = some id) = some old)
include hid hold

theorem addresses_change {f : Members → Members} (hnew : Handled args old route [f old]) :
    Addresses args route p.extensions (updateFirst id f p.extensions) := by
  obtain ⟨front, back, hsplit, hothers, hupdate, -⟩ := split_extensions hnodup hold
  refine ⟨id, front, old, back, _, hid, hsplit, idOf_of_find? hold, hothers, hnew, ?_⟩
  rw [hupdate, List.append_assoc, List.singleton_append]

theorem addresses_look (hnew : Handled args old route [old]) :
    Addresses args route p.extensions p.extensions := by
  obtain ⟨front, back, hsplit, hothers, -⟩ := split_extensions hnodup hold
  refine ⟨id, front, old, back, _, hid, hsplit, idOf_of_find? hold, hothers, hnew, ?_⟩
  rw [hsplit, List.append_assoc, List.singleton_append]

theorem addresses_remove (hnew : Handled args old route []) :
    Addresses args route p.extensions (without id p.extensions) := by
  obtain ⟨front, back, hsplit, hothers, -, hwithout⟩ := split_extensions hnodup hold
  refine ⟨id, front, old, back, _, hid, hsplit, idOf_of_find? hold, hothers, hnew, ?_⟩
  rw [hwithout, List.append_nil]

end

/-! ## The handlers of its routes -/

section

variable (args : Args) {p : Preferences} (hnodup : p.extensionIds.Nodup)
include hnodup

theorem addressed_updateExtensionPrefs :
    Ends p (fun _ q => Addresses args "extension/update-prefs" p.extensions q.extensions)
      (updateExtensionPrefs args) :=
  .requiredText fun _ hid => .required fun _ hdata => .findExtension fun _ hold =>
    .write (addresses_change hnodup hid hold (.stored hdata))

theorem addressed_checkExtension :
    Ends p (fun _ q => Addresses args "extension/check-updates" p.extensions q.extensions) (checkExtension args) :=
  .requiredText fun _ hid => .findExtension fun _ hold => .answer (addresses_look hnodup hid hold .checked)

theorem addressed_updateExtension :
    Ends p (fun _ q => Addresses args "extension/update-ext" p.extensions q.extensions) (updateExtension args) :=
  .requiredText fun _ hid => .findExtension fun _ hold =>
    .putThenFind (by decide) hold fun _ => addresses_change hnodup hid hold .updated

theorem addressed_toggleExtension :
    Ends p (fun _ q => Addresses args "extension/toggle-enabled" p.extensions q.extensions)
      (toggleExtension args) := by
  refine .requiredText fun id hid => .required fun v hv => ?_
  cases v with
  | bool enabled =>
    exact .findExtension fun old hold => .write (addresses_change hnodup hid hold (.switched hv))
  | _ => exact .refuse _

theorem addressed_removeExtension :
    Ends p (fun _ q => Addresses args "extension/remove" p.extensions q.extensions) (removeExtension args) :=
  .requiredText fun _ hid => .findExtension fun _ hold => .write (addresses_remove hnodup hid hold .removed)

/-- **A request that names an extension, and is answered, is for that one.** -/
theorem addresses_dispatch {path : String} (hroute : normalize path ∈ namingRoutes) {v : Json}
    (hanswer : (routes.dispatch path args p).1 = .ok v) :
    Addresses args (normalize path) p.extensions (routes.dispatch path args p).2.extensions := by
  -- the handler of the route, and what it ends in
  obtain ⟨h, hfound, hends⟩ : ∃ h, routes.routes.lookup (normalize path) = some h ∧
      Ends p (fun _ q => Addresses args (normalize path) p.extensions q.extensions) (h args) := by
    simp only [namingRoutes, List.mem_cons, List.not_mem_nil, or_false] at hroute
    rcases hroute with hroute | hroute | hroute | hroute | hroute <;> rw [hroute]
    · exact ⟨updateExtensionPrefs, rfl, addressed_updateExtensionPrefs args hnodup⟩
    · exact ⟨checkExtension, rfl, addressed_checkExtension args hnodup⟩
    · exact ⟨updateExtension, rfl, addressed_updateExtension args hnodup⟩
    · exact ⟨toggleExtension, rfl, addressed_toggleExtension args hnodup⟩
    · exact ⟨removeExtension, rfl, addressed_removeExtension args hnodup⟩
  have hdispatch : routes.dispatch path args p = (h args).run.run p := by
    rw [RouteTable.dispatch, RouteTable.handler?, hfound]
  rw [hdispatch] at hanswer ⊢
  rcases hends.cases with ⟨e, hrun⟩ | ⟨v', q, hrun, hdone⟩
  · rw [hrun] at hanswer
    cases hanswer
  · rw [hrun]
    exact hdone

end

/-! ## Extensions as a table -/

/-- **Extensions are kept under ids as long as none is added again.** After any requests every extension has an id.
At all times no two have had the same exactly if no request has added one under an id that was taken. And where no two
have the same, a request that names an extension, and is answered, is for one extension, and leaves all others as they
are. -/
theorem extensions_keyed (before : List (String × Args)) :
    (∀ ms ∈ (initial.after before).extensions, ∃ id, idOf ms = some id) ∧
    ((∀ earlier, earlier <+: before → (initial.after earlier).extensionIds.Nodup) ↔
      ∀ earlier request, earlier ++ [request] <+: before →
        ¬ AddsAgain (initial.after earlier) request.1 request.2) ∧
    ∀ path args v, (initial.after before).extensionIds.Nodup → normalize path ∈ namingRoutes →
      (routes.dispatch path args (initial.after before)).1 = .ok v →
      Addresses args (normalize path) (initial.after before).extensions
        (routes.dispatch path args (initial.after before)).2.extensions :=
  ⟨identified_after before, nodup_after_iff before,
    fun _ args _ hnodup hroute hanswer => addresses_dispatch args hnodup hroute hanswer⟩

/-- Two extensions are added, and the first of them is switched off, and no other. -/
theorem extensions_keyed_switched :
    let before : List (String × Args) := [("/extension/add", .named [("url", .string "https://example.org/notes/")]),
      ("extension/add", .positional [.string "clock"])]
    let args : Args := .named [("id", .string "com.example.notes"), ("enabled", .bool false)]
    (initial.after before).extensionIds.Nodup ∧
      (routes.dispatch "/extension/toggle-enabled" args (initial.after before)).1 = .ok .null ∧
      Addresses args "extension/toggle-enabled" (initial.after before).extensions
        (routes.dispatch "/extension/toggle-enabled" args (initial.after before)).2.extensions := by
  intro before args
  have hids : (initial.after before).extensionIds =
    [some "com.github.ulauncher.ulauncher-timer", some "com.example.notes", some "com.example.clock"] := rfl
  have hnodup : (initial.after before).extensionIds.Nodup := by
    rw [hids]
    decide
  have hanswer : (routes.dispatch "/extension/toggle-enabled" args (initial.after before)).1 = .ok .null := rfl
  obtain ⟨-, -, haddresses⟩ := extensions_keyed before
  exact ⟨hnodup, hanswer, haddresses "/extension/toggle-enabled" args .null hnodup (by decide) hanswer⟩

/-- The same URL is added twice, and two extensions have one id. -/
theorem extension_added_again :
    ¬ (initial.after [("/extension/add", .named [("url", .string "https://example.org/notes")]),
      ("/extension/add", .named [("url", .string "https://example.org/notes")])]).extensionIds.Nodup := by
  have hids : (initial.after [("/extension/add", .named [("url", .string "https://example.org/notes")]),
      ("/extension/add", .named [("url", .string "https://example.org/notes")])]).extensionIds =
    [some "com.github.ulauncher.ulauncher-timer", some "com.example.notes", some "com.example.notes"] := rfl
  rw [hids]
  decide

end Hostlink.Preferences
