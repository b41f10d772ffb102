import Hostlink.Proofs.Preferences.Requests
import Hostlink.Proofs.Text.Parts

/-!
# Shortcuts under their ids

A host of preferences gives out the ids of shortcuts itself, by number, and never one of them again. So whatever is
asked of it, no two shortcuts share an id, and who names one names one shortcut.

* `Preferences.Issued` — the ids that were given out, `Preferences.not_issued_newId`: the next one was not;
* `Preferences.Keyed` — every shortcut has an id of its own that was given out;
* `Preferences.Deed.keyed` — whatever a request does leaves that so, `Preferences.keyed_after`: and so do all;
* `Preferences.AddedTo`, `Preferences.OverriddenIn`, `Preferences.RemovedFrom` — what becomes of the shortcuts;
* `Preferences.shortcuts_keyed` — **shortcuts are kept under ids, and nothing else becomes of them**.
-/

namespace Hostlink

open Json (Members)
open RouteTable (normalize)

/-- Objects that are canonical are records in order. -/
theorem Args.ordered_of_record? {args : Args} (hargs : ∀ v ∈ args.values, v.Canonical) {ms : Members}
    (h : args.record? = some ms) : ms.Ordered := by
  rw [record?.eq_def] at h
  split at h
  · exact Option.some.inj h ▸ Members.ordered_ofList _
  · next given _ =>
    have hobject : (Json.object given).Canonical := hargs _ List.mem_cons_self
    exact Option.some.inj h ▸ hobject.1
  · cases h

namespace Preferences

/-! ## Ids -/

theorem newId_eq (n : Nat) : newId n = "new-id-" ++ toString n := rfl

theorem newId_inj {m n : Nat} : newId m = newId n ↔ m = n := by
  rw [newId_eq, newId_eq, String.append_right_inj, Text.toString_inj]

theorem newId_ne_first (n : Nat) : newId n ≠ "google-search" := by
  intro h
  have hlist : "new-id-".toList ++ (toString n).toList = "google-search".toList := by
    rw [← String.toList_append, ← newId_eq, h]
  exact absurd (congrArg List.head? hlist) (by simp)

/-- The ids that were given out before a number: that of the first shortcut, and those of smaller numbers. -/
def Issued (n : Nat) (id : String) : Prop := id = "google-search" ∨ ∃ k < n, id = newId k

theorem Issued.mono {m n : Nat} {id : String} (h : Issued m id) (hmn : m ≤ n) : Issued n id :=
  h.imp_right fun ⟨k, hk, hid⟩ => ⟨k, by omega, hid⟩

theorem not_issued_newId (n : Nat) : ¬ Issued n (newId n) := by
  rintro (h | ⟨k, hk, hid⟩)
  · exact newId_ne_first n h
  · have hn : n = k := newId_inj.mp hid
    omega

/-! ## What stays so -/

/-- Every shortcut is in order and has an id that was given out, and no two share one. -/
structure Keyed (p : Preferences) : Prop where
  ordered : ∀ ms ∈ p.shortcuts, ms.Ordered
  issued : ∀ ms ∈ p.shortcuts, ∃ id, idOf ms = some id ∧ Issued p.nextId id
  nodup : (p.shortcuts.map idOf).Nodup

theorem keyed_initial : initial.Keyed := by
  refine ⟨?_, ?_, List.nodup_singleton _⟩
  · intro ms hms
    rw [List.mem_singleton.mp hms]
    exact Members.ordered_ofList _
  · intro ms hms
    rw [List.mem_singleton.mp hms]
    exact ⟨"google-search", by decide, .inl rfl⟩

section

variable {p q : Preferences} {args : Args} {route : String} {v : Json}

/-- A shortcut that is added has the next id, which no other has. -/
theorem Keyed.add (h : p.Keyed) {ms : Members} (hms : ms.Ordered) :
    Keyed { p with shortcuts := p.shortcuts ++ [ms.insert "id" (.string (newId p.nextId))], nextId := p.nextId + 1 } := by
  have hid := idOf_insert_id (newId p.nextId) ms
  refine ⟨?_, ?_, ?_⟩
  · intro other hother
    rcases List.mem_append.mp hother with hother | hother
    · exact h.ordered other hother
    · rw [List.mem_singleton.mp hother]
      exact hms.insert _ _
  · intro other hother
    rcases List.mem_append.mp hother with hother | hother
    · obtain ⟨id, heq, hissued⟩ := h.issued other hother
      exact ⟨id, heq, hissued.mono (Nat.le_succ _)⟩
    · rw [List.mem_singleton.mp hother]
      exact ⟨_, hid, .inr ⟨p.nextId, Nat.lt_succ_self _, rfl⟩⟩
  · rw [List.map_append, List.map_singleton, hid, ← List.concat_eq_append, List.nodup_concat]
    refine ⟨?_, h.nodup⟩
    -- an id that was given out is not the next one
    intro hmem
    obtain ⟨other, hother, heq⟩ := List.mem_map.mp hmem
    obtain ⟨id, hid', hissued⟩ := h.issued other hother
    obtain rfl := Option.some.inj (hid'.symm.trans heq)
    exact not_issued_newId _ hissued

/-- A shortcut that is overridden keeps its id. -/
theorem Keyed.override (h : p.Keyed) {given old : Members} {id : String} (hgiven : given.Ordered)
    (hid : idOf given = some id) (hold : p.shortcuts.find? (idOf · = some id) = some old) :
    Keyed { p with shortcuts := updateFirst id (·.union given) p.shortcuts } := by
  have hnew := idOf_union hgiven hid
  -- a shortcut was there, or is the one that was overridden
  have hcases : ∀ ms ∈ updateFirst id (·.union given) p.shortcuts, ms ∈ p.shortcuts ∨ ms = old.union given := by
    intro ms hms
    rcases mem_updateFirst hms with hms | ⟨found, hfound, rfl⟩
    · exact .inl hms
    · exact .inr (by rw [Option.some.inj (hold.symm.trans hfound)])
  have hthere : old ∈ p.shortcuts := List.mem_of_find?_eq_some hold
  refine ⟨?_, ?_, ?_⟩
  · intro ms hms
    rcases hcases ms hms with hms | rfl
    · exact h.ordered ms hms
    · exact (h.ordered old hthere).union given
  · intro ms hms
    rcases hcases ms hms with hms | rfl
    · exact h.issued ms hms
    · obtain ⟨id', heq, hissued⟩ := h.issued old hthere
      obtain rfl := Option.some.inj (heq.symm.trans (idOf_of_find? hold))
      exact ⟨id', hnew old, hissued⟩
  · have hids : (updateFirst id (·.union given) p.shortcuts).map idOf = p.shortcuts.map idOf :=
      map_idOf_updateFirst fun found _ => hnew found
    rw [hids]
    exact h.nodup

theorem Keyed.without (h : p.Keyed) (id : String) : Keyed { p with shortcuts := without id p.shortcuts } :=
  ⟨fun ms hms => h.ordered ms (List.mem_filter.mp hms).1, fun ms hms => h.issued ms (List.mem_filter.mp hms).1,
    (List.filter_sublist.map idOf).nodup h.nodup⟩

/-! ## The deeds of their routes -/

theorem Deed.of_add (hdeed : Deed args p "shortcut/add" v q) :
    ∃ given, args.record? = some given ∧ v = .object (given.insert "id" (.string (newId p.nextId))) ∧
      q.shortcuts = p.shortcuts ++ [given.insert "id" (.string (newId p.nextId))] := by
  generalize hroute : "shortcut/add" = route at hdeed
  cases hdeed with
  | addedShortcut hms => exact ⟨_, hms, rfl, rfl⟩
  | looked hmem | stored hmem | changedExtension hmem => exact absurd (hroute ▸ hmem) (by decide)
  | updatedShortcut | removedShortcut | addedExtension | removedExtension => exact absurd hroute (by decide)

theorem Deed.of_update (hdeed : Deed args p "shortcut/update" v q) :
    ∃ given id old, args.record? = some given ∧ idOf given = some id ∧
      p.shortcuts.find? (idOf · = some id) = some old ∧ v = .object (old.union given) ∧
      q.shortcuts = updateFirst id (·.union given) p.shortcuts := by
  generalize hroute : "shortcut/update" = route at hdeed
  cases hdeed with
  | updatedShortcut hms hid hold => exact ⟨_, _, _, hms, hid, hold, rfl, rfl⟩
  | looked hmem | stored hmem | changedExtension hmem => exact absurd (hroute ▸ hmem) (by decide)
  | addedShortcut | removedShortcut | addedExtension | removedExtension => exact absurd hroute (by decide)

theorem Deed.of_remove (hdeed : Deed args p "shortcut/remove" v q) :
    ∃ id old, args.find? "id" 0 = some (.string id) ∧ p.shortcuts.find? (idOf · = some id) = some old ∧
      q.shortcuts = Preferences.without id p.shortcuts := by
  generalize hroute : "shortcut/remove" = route at hdeed
  cases hdeed with
  | removedShortcut hid hold => exact ⟨_, _, hid, hold, rfl⟩
  | looked hmem | stored hmem | changedExtension hmem => exact absurd (hroute ▸ hmem) (by decide)
  | addedShortcut | updatedShortcut | addedExtension | removedExtension => exact absurd hroute (by decide)

/-- Other routes are not for shortcuts. -/
theorem Deed.of_other (hdeed : Deed args p route v q)
    (hroute : route ∉ ["shortcut/add", "shortcut/update", "shortcut/remove"]) : q.shortcuts = p.shortcuts := by
  cases hdeed with
  | addedShortcut | updatedShortcut | removedShortcut => exact absurd (by decide) hroute
  | looked | stored | addedExtension | changedExtension | removedExtension => rfl

/-! ## What stays so, request by request -/

/-- **Whatever a request does, shortcuts have ids of their own that were given out, and none is given back.** -/
theorem Deed.keyed (hdeed : Deed args p route v q) (hargs : ∀ v ∈ args.values, v.Canonical) (h : p.Keyed) :
    q.Keyed ∧ p.nextId ≤ q.nextId := by
  cases hdeed with
  | looked => exact ⟨h, Nat.le_refl _⟩
  | stored | addedExtension | changedExtension | removedExtension =>
    exact ⟨⟨h.ordered, h.issued, h.nodup⟩, Nat.le_refl _⟩
  | addedShortcut hms => exact ⟨h.add (Args.ordered_of_record? hargs hms), Nat.le_succ _⟩
  | updatedShortcut hms hid hold => exact ⟨h.override (Args.ordered_of_record? hargs hms) hid hold, Nat.le_refl _⟩
  | removedShortcut => exact ⟨h.without _, Nat.le_refl _⟩

theorem Keyed.dispatch (h : p.Keyed) (path : String) (hargs : ∀ v ∈ args.values, v.Canonical) :
    (routes.dispatch path args p).2.Keyed ∧ p.nextId ≤ (routes.dispatch path args p).2.nextId := by
  rcases dispatch_cases path args p with ⟨e, hdispatch⟩ | ⟨v, q, hdispatch, hdeed⟩
  · rw [hdispatch]
    exact ⟨h, Nat.le_refl _⟩
  · rw [hdispatch]
    exact hdeed.keyed hargs h

/-- So it stays through all requests. -/
theorem Keyed.after (h : p.Keyed) {requests : List (String × Args)}
    (hrequests : ∀ request ∈ requests, ∀ v ∈ request.2.values, v.Canonical) :
    (p.after requests).Keyed ∧ p.nextId ≤ (p.after requests).nextId := by
  induction requests generalizing p with
  | nil => exact ⟨h, Nat.le_refl _⟩
  | cons request requests ih =>
    obtain ⟨hnext, hle⟩ := h.dispatch request.1 (hrequests request List.mem_cons_self)
    obtain ⟨hkeyed, hle'⟩ := ih hnext fun later hlater => hrequests later (List.mem_cons_of_mem _ hlater)
    rw [after_cons]
    exact ⟨hkeyed, Nat.le_trans hle hle'⟩

end

/-- The next id belonged to no shortcut at any time. -/
theorem newId_unused {before : List (String × Args)}
    (hbefore : ∀ request ∈ before, ∀ v ∈ request.2.values, v.Canonical) {earlier : List (String × Args)}
    (hearlier : earlier <+: before) :
    ∀ ms ∈ (initial.after earlier).shortcuts, idOf ms ≠ some (newId (initial.after before).nextId) := by
  obtain ⟨later, rfl⟩ := hearlier
  intro ms hms hid
  have hthen := (keyed_initial.after fun request hrequest => hbefore request (List.mem_append_left _ hrequest)).1
  have hsince := (hthen.after fun request hrequest => hbefore request (List.mem_append_right _ hrequest)).2
  rw [← after_append] at hsince
  obtain ⟨id, heq, hissued⟩ := hthen.issued ms hms
  obtain rfl := Option.some.inj (heq.symm.trans hid)
  exact not_issued_newId _ (hissued.mono hsince)

/-! ## What becomes of shortcuts -/

/-- A record is added at the end: what was given, under an id. -/
def AddedTo (records : List Members) (given : Members) (id : String) (new : Members) (left : List Members) : Prop :=
  left = records ++ [new] ∧ new.Ordered ∧
    ∀ key, Members.lookup key new = if key = "id" then some (.string id) else Members.lookup key given

/-- The record of an id is overridden where it stands: it has what was given, and what it had besides. -/
def OverriddenIn (records : List Members) (given : Members) (id : String) (new : Members) (left : List Members) :
    Prop :=
  ∃ front old back, records = front ++ old :: back ∧ idOf old = some id ∧ left = front ++ new :: back ∧ new.Ordered ∧
    ∀ key, Members.lookup key new = (Members.lookup key given).or (Members.lookup key old)

/-- The record of an id is taken out from between the others. -/
def RemovedFrom (records : List Members) (id : String) (left : List Members) : Prop :=
  ∃ front old back, records = front ++ old :: back ∧ idOf old = some id ∧ left = front ++ back

/-- **Shortcuts are kept under ids.** After any requests every shortcut has an id, and no two have the same. Of a further
request, with whatever arguments (objects in them are in the order of their keys, as all objects are that were read):

* one that adds a shortcut, and is answered, adds what was given, under an id that no shortcut had at any time;
* one that updates a shortcut overrides the one whose id was given;
* one that removes a shortcut takes out the one whose id was given;
* all others leave the shortcuts as they are, and so do all that are refused. -/
theorem shortcuts_keyed {before : List (String × Args)} {path : String} {args : Args}
    (hbefore : ∀ request ∈ before, ∀ v ∈ request.2.values, v.Canonical) (hargs : ∀ v ∈ args.values, v.Canonical) :
    let p := initial.after before
    let answer := (routes.dispatch path args p).1
    let left := (routes.dispatch path args p).2.shortcuts
    ((∀ ms ∈ p.shortcuts, ∃ id, idOf ms = some id) ∧ (p.shortcuts.map idOf).Nodup) ∧
    (normalize path = "shortcut/add" → ∀ v, answer = .ok v → ∃ given id new,
      args.record? = some given ∧ v = .object new ∧ AddedTo p.shortcuts given id new left ∧
        ∀ earlier, earlier <+: before → ∀ ms ∈ (initial.after earlier).shortcuts, idOf ms ≠ some id) ∧
    (normalize path = "shortcut/update" → ∀ v, answer = .ok v → ∃ given id new,
      args.record? = some given ∧ idOf given = some id ∧ v = .object new ∧
        OverriddenIn p.shortcuts given id new left) ∧
    (normalize path = "shortcut/remove" → ∀ v, answer = .ok v → ∃ id,
      args.find? "id" 0 = some (.string id) ∧ RemovedFrom p.shortcuts id left) ∧
    (normalize path ∉ ["shortcut/add", "shortcut/update", "shortcut/remove"] ∨ (∃ e, answer = .error e) →
      left = p.shortcuts) := by
  intro p answer left
  have hkeyed : p.Keyed := (keyed_initial.after hbefore).1
  refine ⟨⟨fun ms hms => (hkeyed.issued ms hms).imp fun _ h => h.1, hkeyed.nodup⟩, ?_⟩
  rcases dispatch_cases path args p with ⟨e, hdispatch⟩ | ⟨v, q, hdispatch, hdeed⟩
  · -- what is refused changes nothing, whatever the route
    have hanswer : answer = .error e := congrArg Prod.fst hdispatch
    have hleft : left = p.shortcuts := congrArg (fun r => r.2.shortcuts) hdispatch
    rw [hanswer, hleft]
    exact ⟨fun _ v hv => (by cases hv), fun _ v hv => (by cases hv), fun _ v hv => (by cases hv), fun _ => rfl⟩
  · have hanswer : answer = .ok v := congrArg Prod.fst hdispatch
    have hleft : left = q.shortcuts := congrArg (fun r => r.2.shortcuts) hdispatch
    rw [hanswer, hleft]
    -- a deed knows its route by its canonical text only
    generalize normalize path = route at hdeed ⊢
    refine ⟨?_, ?_, ?_, ?_⟩
    · rintro rfl _ ⟨⟩
      obtain ⟨given, hgiven, hv, hq⟩ := hdeed.of_add
      have hordered := Args.ordered_of_record? hargs hgiven
      exact ⟨given, newId p.nextId, _, hgiven, hv,
        ⟨hq, hordered.insert _ _, Members.lookup_insert _ _ _⟩, fun _ => newId_unused hbefore⟩
    · rintro rfl _ ⟨⟩
      obtain ⟨given, id, old, hgiven, hid, hold, hv, hq⟩ := hdeed.of_update
      have hordered := Args.ordered_of_record? hargs hgiven
      obtain ⟨front, back, hsplit, hupdate⟩ := updateFirst_split hold
      have hthere : old.Ordered := hkeyed.ordered old (List.mem_of_find?_eq_some hold)
      exact ⟨given, id, _, hgiven, hid, hv, front, old, back, hsplit, idOf_of_find? hold, hq.trans (hupdate _),
        hthere.union given, fun key => hordered.lookup_union key old⟩
    · rintro rfl _ ⟨⟩
      obtain ⟨id, old, hid, hold, hq⟩ := hdeed.of_remove
      obtain ⟨front, back, hsplit, hwithout⟩ := without_split hkeyed.nodup hold
      exact ⟨id, hid, front, old, back, hsplit, idOf_of_find? hold, hq.trans hwithout⟩
    · rintro (hroute | ⟨e, he⟩)
      · exact hdeed.of_other hroute
      · cases he

/-- A shortcut that is added after one was removed has an id that was not used. -/
theorem shortcuts_keyed_removed :
    let before : List (String × Args) := [("/shortcut/add", .positional [.object [("id", .string "google-search")]]),
      ("/shortcut/remove", .named [("id", .string "new-id-1")])]
    ∃ new, (routes.dispatch "/shortcut/add" (.named [("name", .string "Wiki")]) (initial.after before)).1 =
        .ok (.object new) ∧ Members.lookup "id" new = some (.string "new-id-2") ∧
      ∀ earlier, earlier <+: before → ∀ ms ∈ (initial.after earlier).shortcuts, idOf ms ≠ some "new-id-2" := by
  have hanswer : (routes.dispatch "/shortcut/add" (.named [("name", .string "Wiki")])
      (initial.after [("/shortcut/add", .positional [.object [("id", .string "google-search")]]),
        ("/shortcut/remove", .named [("id", .string "new-id-1")])])).1 =
      .ok (Json.ofMembers [("name", .string "Wiki"), ("id", .string "new-id-2")]) := rfl
  intro before
  have hbefore : ∀ request ∈ before, ∀ v ∈ request.2.values, v.Canonical := by
    intro request hrequest v hv
    rcases List.mem_cons.mp hrequest with rfl | hrequest
    · rw [List.mem_singleton.mp hv]
      exact ⟨List.pairwise_singleton _ _, trivial, trivial⟩
    · obtain rfl := List.mem_singleton.mp hrequest
      rw [List.mem_singleton.mp hv]
      trivial
  have hargs : ∀ v ∈ (Args.named [("name", .string "Wiki")]).values, v.Canonical := fun v hv => by
    rw [List.mem_singleton.mp hv]
    trivial
  obtain ⟨-, hadd, -⟩ := @shortcuts_keyed before "/shortcut/add" _ hbefore hargs
  obtain ⟨given, id, new, -, hnew, ⟨-, -, hmembers⟩, hunused⟩ := hadd (by decide) _ hanswer
  obtain rfl := Json.object.inj hnew
  have hid : some (Json.string "new-id-2") = some (.string id) := hmembers "id"
  obtain rfl := Json.string.inj (Option.some.inj hid)
  exact ⟨_, hanswer, rfl, hunused⟩

end Preferences

end Hostlink
