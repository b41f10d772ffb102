import Hostlink.Proofs.Preferences.Arguments
import Hostlink.Proofs.Preferences.Checks
import Hostlink.Proofs.Preferences.Records
import Hostlink.Proofs.Reply

/-!
# What a host of preferences keeps comes through JSON

If arguments come through JSON with some room to spare, so does all that the host keeps, and all that it
answers.

* `Json.Members.Portable` — members that an object carries;
* `Preferences.Sound` — all that is kept is carried;
* `Preferences.Keeps` — a handler keeps this, and its answer is carried;
* `Preferences.keeps_getAll` and its siblings — **the handlers do**, for arguments that are carried.
-/

namespace Hostlink

open Json (Members)

/-! ## Members -/

namespace Json.Members

variable {room : Nat} {ms : Members}

/-- Members in order, with values that JSON carries. -/
structure Portable (room : Nat) (ms : Members) : Prop where
  ordered : ms.Ordered
  values : ∀ p ∈ ms, p.2.Portable room

namespace Portable

theorem ofList {pairs : List (String × Json)} (h : ∀ p ∈ pairs, p.2.Portable room) :
    (Members.ofList pairs).Portable room :=
  ⟨ordered_ofList pairs, fun p hp => h p (mem_of_mem_ofList hp)⟩

variable (h : ms.Portable room)
include h

theorem insert {v : Json} (hv : v.Portable room) (key : String) : (Members.insert key v ms).Portable room := by
  refine ⟨h.ordered.insert key v, fun p hp => ?_⟩
  rcases mem_insert hp with rfl | hp
  · exact hv
  · exact h.values p hp

theorem union {others : Members} (ho : others.Portable room) : (Members.union ms others).Portable room :=
  ⟨h.ordered.union others, fun p hp => (mem_union hp).elim (h.values p) (ho.values p)⟩

/-- The object of such members is carried. -/
theorem object : (Json.object ms).Portable (room + 1) := by
  have hobject := portable_ofMembers h.values
  rw [ofMembers, ofList_of_ordered h.ordered] at hobject
  exact hobject

end Portable

end Json.Members

theorem Json.portable_null (room : Nat) : Json.null.Portable room := ⟨trivial, trivial, Nat.zero_le _⟩

theorem Json.portable_bool (room : Nat) (b : Bool) : (Json.bool b).Portable room := ⟨trivial, trivial, Nat.zero_le _⟩

/-- An error with a type is carried. -/
theorem HostError.portable_ofType (message type : String) : (HostError.ofType message type).Portable := by
  have hvalue : ((HostError.ofType message type).toJson).Portable 1 :=
    Json.portable_ofMembers fun p hp => by
      rcases List.mem_cons.mp hp with rfl | hp
      · exact Json.portable_string 0 message
      · rw [List.mem_singleton.mp hp]
        exact Json.portable_string 0 type
  exact ⟨.ofType message type, hvalue.integral, Nat.le_trans hvalue.depth_le (by decide), rfl⟩

namespace Preferences

/-! ## What is kept -/

/-- All that is kept is carried, with room for an answer around it. -/
structure Sound (p : Preferences) : Prop where
  settings : p.settings.Portable 100
  shortcuts : ∀ ms ∈ p.shortcuts, ms.Portable 100
  extensions : ∀ ms ∈ p.extensions, ms.Portable 100

/-- A record that is changed in a way that is carried. -/
theorem portable_updateFirst {records : List Members} (h : ∀ ms ∈ records, ms.Portable 100) {f : Members → Members}
    (hf : ∀ ms : Members, ms.Portable 100 → (f ms).Portable 100) (id : String) :
    ∀ ms ∈ updateFirst id f records, ms.Portable 100 := by
  intro ms hms
  rcases mem_updateFirst hms with hms | ⟨old, hold, rfl⟩
  · exact h ms hms
  · exact hf old (h old (List.mem_of_find?_eq_some hold))

theorem sound_initial : initial.Sound := by
  have hstring := fun s => Json.portable_string 100 s
  have hbool := fun b => Json.portable_bool 100 b
  have hrecord : ∀ ms : Members, ms.Portable 100 → ∀ other ∈ [ms], Members.Portable 100 other := fun ms h other ho =>
    List.mem_singleton.mp ho ▸ h
  refine ⟨.ofList ?_, hrecord _ (.ofList ?_), hrecord _ (.ofList ?_)⟩
  · simp [hstring, hbool]
  · simp [hstring, hbool, Json.portable_null]
  · have hkeyword : (Json.ofMembers [("keyword",
        Json.ofMembers [("type", .string "keyword"), ("value", .string "ti")])]).Portable 2 :=
      Json.portable_ofMembers fun p hp => by
        rw [List.mem_singleton.mp hp]
        exact Json.portable_ofMembers (by simp [Json.portable_string])
    simp [hstring, hbool, hkeyword.mono]

/-! ## The steps of handlers -/

/-- An action that keeps what is kept in this way, and whose answer is carried. -/
def Keeps (x : Action Preferences Json) : Prop :=
  ∀ p : Preferences, p.Sound → x.Runs p fun r q => q.Sound ∧ (HostAnswer.routed r).Portable

namespace Keeps

variable {x : Action Preferences Json} {args : Args} {key id : String} {index : Nat}

theorem answer {v : Json} {room : Nat} (hv : v.Portable room) (hroom : room ≤ 126) : Keeps (pure v) :=
  fun _ hp => (Action.runs_pure v).mpr ⟨hp, hv.mono hroom⟩

theorem refuse (message type : String) : Keeps (throw (.ofType message type)) :=
  fun _ hp => (Action.runs_throw _).mpr ⟨hp, HostError.portable_ofType message type⟩

theorem get {f : Preferences → Action Preferences Json} (h : ∀ p : Preferences, p.Sound → Keeps (f p)) :
    Keeps (get >>= f) :=
  fun p hp => Action.runs_get_bind.mpr (h p hp p hp)

theorem modify {g : Preferences → Preferences} (hg : ∀ p : Preferences, p.Sound → (g p).Sound) (hx : Keeps x) :
    Keeps (modify g >>= fun _ => x) :=
  fun p hp => (Action.runs_modify_bind g).mpr (hx (g p) (hg p hp))

theorem required {f : Json → Action Preferences Json} (h : ∀ v, args.find? key index = some v → Keeps (f v)) :
    Keeps (required args key index >>= f) :=
  fun p hp => runs_required (fun _ => refuse _ _ p hp) fun v hv => h v hv p hp

theorem requiredText {f : String → Action Preferences Json} (h : ∀ s, s ≠ "" → Keeps (f s)) :
    Keeps (requiredText args key index >>= f) :=
  fun p hp => runs_requiredText (fun _ => refuse _ _ p hp) fun s _ hs => h s hs p hp

theorem record {pairs : List (String × Json)} {f : Members → Action Preferences Json}
    (h : Keeps (f (Members.ofList pairs))) : Keeps (recordOf (.named pairs) >>= f) := h

theorem findExtension {f : Members → Action Preferences Json} (h : ∀ ms : Members, ms.Portable 100 → Keeps (f ms)) :
    Keeps (findExtension id >>= f) :=
  fun p hp => runs_findExtension (fun _ => refuse _ _ p hp) fun ms hms =>
    h ms (hp.extensions ms (List.mem_of_find?_eq_some hms)) p hp

theorem putExtension {v : Json} (hv : v.Portable 100) (hx : Keeps x) :
    Keeps (putExtension id key v >>= fun _ => x) :=
  modify (fun _ hp => { hp with
    extensions := portable_updateFirst hp.extensions (fun _ h => h.insert hv key) id }) hx

end Keeps

/-! ## Handlers -/

section

variable {args : Args}

theorem keeps_getAll (args : Args) : Keeps (getAll args) := by
  have henv : env.Portable 1 := Json.portable_ofMembers (by simp [Json.portable_string, Json.portable_bool])
  refine .get fun p hp => ?_
  exact .answer (hp.settings.insert (henv.mono (by decide)) "env").object (by decide)

theorem keeps_store {v : Json} (hv : v.Portable 100) (key : String) : Keeps (store key v) :=
  .modify (fun _ hp => { hp with settings := hp.settings.insert hv key }) (.answer (Json.portable_null 0) (by decide))

theorem keeps_setAny (hargs : ∀ v ∈ args.find? "value" 1, v.Portable 100) : Keeps (setAny args) :=
  .requiredText fun key _ => .required fun v hv => keeps_store (hargs v hv) key

theorem keeps_setHotkey : Keeps (setHotkey args) :=
  .requiredText fun s _ => keeps_store (Json.portable_string 100 s) _

theorem keeps_openWebUrl : Keeps (openWebUrl args) := by
  refine .requiredText fun url _ => ?_
  split
  · exact .answer (Json.portable_null 0) (by decide)
  · exact .refuse _ _

theorem keeps_openExtensionsDir (args : Args) : Keeps (openExtensionsDir args) :=
  .answer (Json.portable_null 0) (by decide)

/-- Records are carried as a list of objects. -/
theorem portable_objects {records : List Members} (h : ∀ ms ∈ records, ms.Portable 100) :
    (Json.array (records.map .object)).Portable 102 := Json.portable_array fun v hv => by
  obtain ⟨ms, hms, rfl⟩ := List.mem_map.mp hv
  exact (h ms hms).object

theorem keeps_getShortcuts (args : Args) : Keeps (getShortcuts args) :=
  .get fun _ hp => .answer (portable_objects hp.shortcuts) (by decide)

theorem keeps_getExtensions (args : Args) : Keeps (getExtensions args) :=
  .get fun _ hp => .answer (portable_objects hp.extensions) (by decide)

theorem forall_mem_concat {records : List Members} (h : ∀ ms ∈ records, ms.Portable 100) {new : Members}
    (hnew : new.Portable 100) : ∀ ms ∈ records ++ [new], ms.Portable 100 := by
  intro ms hms
  rcases List.mem_append.mp hms with hms | hms
  · exact h ms hms
  · exact List.mem_singleton.mp hms ▸ hnew

theorem keeps_addShortcut {pairs : List (String × Json)} (hpairs : ∀ q ∈ pairs, q.2.Portable 100) :
    Keeps (addShortcut (.named pairs)) := by
  refine .record (.get fun p _ => ?_)
  have hms : ((Members.ofList pairs).insert "id" (.string (newId p.nextId))).Portable 100 :=
    (Members.Portable.ofList hpairs).insert (Json.portable_string _ _) _
  refine .modify (fun q hq => ?_) (.answer hms.object (by decide))
  exact ⟨hq.settings, forall_mem_concat hq.shortcuts hms, hq.extensions⟩

theorem keeps_updateShortcut {pairs : List (String × Json)} (hpairs : ∀ q ∈ pairs, q.2.Portable 100) :
    Keeps (updateShortcut (.named pairs)) := by
  have hms : (Members.ofList pairs).Portable 100 := .ofList hpairs
  refine .record ?_
  split
  · exact .refuse _ _
  · next id _ =>
    refine .get fun p hp => ?_
    split
    · exact .refuse _ _
    · next old hold =>
      have hunion : (old.union (Members.ofList pairs)).Portable 100 :=
        (hp.shortcuts old (List.mem_of_find?_eq_some hold)).union hms
      exact .modify (fun _ hp => { hp with
        shortcuts := portable_updateFirst hp.shortcuts (fun _ h => h.union hms) id })
        (.answer hunion.object (by decide))

theorem keeps_removeShortcut : Keeps (removeShortcut args) := by
  refine .requiredText fun id _ => .get fun before _ => ?_
  refine .modify (fun _ hp => { hp with shortcuts := fun ms hms => hp.shortcuts ms (List.mem_filter.mp hms).1 }) ?_
  refine .get fun p _ => ?_
  split
  · exact .refuse _ _
  · exact .answer (Json.portable_null 0) (by decide)

theorem keeps_addExtension : Keeps (addExtension args) := by
  refine .requiredText fun url _ => ?_
  dsimp only
  split
  · exact .refuse _ _
  · have hempty : (Json.object []).Portable 100 := ⟨trivial, ⟨List.Pairwise.nil, trivial⟩, by decide⟩
    have hms : (Members.ofList [("id", .string s!"com.example.{extensionName url}"), ("url", .string url),
        ("name", .string (extensionName url)), ("is_enabled", .bool true), ("preferences", .object [])]).Portable 100 :=
      .ofList (by simp [Json.portable_string, Json.portable_bool, hempty])
    refine .modify (fun q hq => ?_) (.answer hms.object (by decide))
    exact ⟨hq.settings, hq.shortcuts, forall_mem_concat hq.extensions hms⟩

theorem keeps_updateExtensionPrefs (hargs : ∀ v ∈ args.find? "data" 1, v.Portable 100) :
    Keeps (updateExtensionPrefs args) :=
  .requiredText fun _ _ => .required fun v hv => .findExtension fun _ _ =>
    .putExtension (hargs v hv) (.answer (Json.portable_null 0) (by decide))

theorem keeps_checkExtension : Keeps (checkExtension args) := by
  refine .requiredText fun _ _ => .findExtension fun _ _ => .answer (?_ : Json.Portable 1 _) (by decide)
  exact Json.portable_ofMembers (by simp [Json.portable_string, Json.portable_bool])

theorem keeps_updateExtension : Keeps (updateExtension args) :=
  .requiredText fun _ _ => .findExtension fun _ _ => .putExtension (Json.portable_string 100 _) <|
    .findExtension fun _ hms => .answer hms.object (by decide)

theorem keeps_toggleExtension : Keeps (toggleExtension args) := by
  refine .requiredText fun _ _ => .required fun v _ => ?_
  split
  · exact .refuse _ _
  · next enabled _ =>
    exact .findExtension fun _ _ => .putExtension (Json.portable_bool 100 enabled)
      (.answer (Json.portable_null 0) (by decide))

theorem keeps_removeExtension : Keeps (removeExtension args) :=
  .requiredText fun _ _ => .findExtension fun _ _ =>
    .modify (fun _ hp => { hp with extensions := fun ms h => hp.extensions ms (List.mem_filter.mp h).1 })
      (.answer (Json.portable_null 0) (by decide))

end

end Preferences

end Hostlink
