import Hostlink.Proofs.Bridge.Mirror

/-!
# The scripts of requests

Over script tags, the page carries a script for every request that waits, newest first, in front of
the scripts of its own.

* `Bridge.Opening` — a request that has no script yet;
* `Bridge.Shows` — the page shows the requests that wait;
* `Shows.call`, `Bridge.invariant_shows` — whatever begins or ends a request keeps this;
* `Session.scripts_run` — **the page shows the requests that wait, newest first, and then its own
  scripts**.
-/

namespace Hostlink.Bridge

open Document (Flat)

variable {σ : Type}

/-! ## Requests that are being sent -/

/-- The newest request waits without a script, and all older ones have one. -/
structure Opening (url : Nat → Option String) (srcs : List String) (id : String) (n : Nat)
    (b : Bridge σ) : Prop where
  mirror : Mirror url srcs b
  newest : ∃ olds slot, b.registry.slots = olds ++ [slot] ∧ slot.id = id ∧ slot.number = n ∧
    slot.guard = none ∧ ∀ s ∈ olds, s.guard.isSome

/-- Every request that waits has a script. -/
def Guarded (b : Bridge σ) : Prop := ∀ s ∈ b.registry.slots, s.guard.isSome

namespace Opening

variable {url : Nat → Option String} {srcs : List String} {id : String} {n : Nat} {b : Bridge σ}
  (ho : Opening url srcs id n b)
include ho

theorem find?_eq : ∃ olds slot, b.registry.slots = olds ++ [slot] ∧ slot.id = id ∧ slot.number = n ∧
    slot.guard = none ∧ (∀ s ∈ olds, s.guard.isSome) ∧ b.registry.find? id = some slot := by
  obtain ⟨olds, slot, hslots, hid, hn, hg, holds⟩ := ho.newest
  exact ⟨olds, slot, hslots, hid, hn, hg, holds, hid ▸ ho.mirror.sound.find?_last hslots⟩

/-- A request that cannot be sent goes without a trace. -/
theorem settle (v : Settlement) :
    Mirror url srcs (b.settle id v).2 ∧ Guarded (b.settle id v).2 := by
  obtain ⟨olds, slot, hslots, rfl, hn, hg, holds, hf⟩ := ho.find?_eq
  have hreg : (b.settle slot.id v).2.registry = { b.registry with slots := olds } := by
    rw [← ho.mirror.sound.erase_last hslots]
    simp [Bridge.settle, Registry.settle, hf]
  refine ⟨ho.mirror.settle _ v, fun s hs => holds s ?_⟩
  rwa [hreg] at hs

theorem armTimer {c : Bridge σ} {ms : Nat} (ha : b.armTimer id ms = .ok c) : Opening url srcs id n c := by
  obtain ⟨olds, slot, hslots, rfl, hn, hg, holds, hf⟩ := ho.find?_eq
  rw [armTimer_ok ha]
  have harmed : Mirror url srcs (b.armed slot.id ms) := ho.mirror.same rfl rfl rfl
  refine ⟨harmed.attachTimer _ _, olds, { slot with timer := some b.timers.length }, ?_, rfl, hn, hg, holds⟩
  have hpending : (b.armed slot.id ms).registry.isPending slot.id = true := by simp [Registry.isPending, armed, hf]
  rw [attachTimer_of_isPending hpending]
  exact congrArg Registry.slots (ho.mirror.sound.update_last hslots _)

theorem missed {u : String} {e : Rejection} (h : b.trigger id u = .error e) : Opening url srcs id n (b.missed u) := by
  refine ⟨ho.mirror.missed h, ?_⟩
  obtain ⟨page, hmissed⟩ := missed_eq b u
  rw [hmissed]
  exact ho.newest

/-- A request that is sent has its script before all others. -/
theorem trigger {c : Bridge σ} {u : String} (hu : url n = some u) (ht : b.trigger id u = .ok c) :
    Mirror url srcs c ∧ Guarded c := by
  obtain ⟨olds, slot, hslots, rfl, hn, hg, holds, -⟩ := ho.find?_eq
  rcases trigger_ok ht with ⟨hfetch, -⟩ | ⟨-, e, page, hins, rfl⟩
  · cases ho.mirror.transport.symm.trans hfetch
  · obtain ⟨hs, bs, own, hflat, hsplit, hown⟩ := ho.mirror.layout
    rcases insertScript_flat hflat u with ⟨hnone, -⟩ | ⟨page', hs', bs', heq, hflat', -, hsrc, hplace⟩
    · rw [hins] at hnone
      cases hnone
    obtain ⟨he, rfl⟩ := Prod.mk.inj (hins.symm.trans heq)
    obtain rfl := Option.some.inj he
    -- what the new script does to the bridge
    obtain ⟨ready, hshown⟩ := shown_eq b page
    let guarded : Slot Artefact Nat → Slot Artefact Nat := fun s =>
      { s with guard := some (.script b.page.next) }
    have hmem : slot ∈ b.registry.slots := hslots ▸ List.mem_append_right _ List.mem_cons_self
    rw [hshown, attachGuard_of_none (b := { b with page := page, ready := ready }) ho.mirror.sound hmem hg]
    have hslots' := congrArg Registry.slots (ho.mirror.sound.update_last hslots guarded)
    have hscripts : requestScripts (b.registry.update slot.id guarded) =
        b.page.next :: requestScripts b.registry := by
      simp [requestScripts, hslots', hslots, slotScript?, guarded, hg, Artefact.element?]
    have hall := append_of_layout hsplit
    have hkeep : ∀ x ∈ requestScripts b.registry ++ own, page.src? x = b.page.src? x := fun x hx => by
      rw [hsrc, if_neg (hflat.ne_next (hflat.script_mem (hall ▸ hx)))]
    refine ⟨⟨ho.mirror.transport, ho.mirror.sound.update slot.id guarded (fun _ => rfl) fun _ => rfl,
      ⟨hs', bs', own, hflat', ?_, ?_⟩, fun s hs g hgs => ?_⟩, fun s hs => ?_⟩
    · rw [hscripts]
      exact layout_cons hsplit hplace
    · rw [← hown]
      exact List.map_congr_left fun x hx => hkeep x (List.mem_append_right _ hx)
    · rw [hslots'] at hs
      rcases List.mem_append.mp hs with hs | hs
      · have hmem : s ∈ b.registry.slots := hslots ▸ List.mem_append_left _ hs
        obtain ⟨e, rfl, he⟩ := ho.mirror.source s hmem g hgs
        exact ⟨e, rfl, (hkeep e (List.mem_append_left _ (mem_requestScripts hmem hgs))).trans he⟩
      · rw [List.mem_singleton.mp hs] at hgs ⊢
        exact ⟨b.page.next, (Option.some.inj hgs).symm, by rw [hsrc, if_pos rfl, ← hu, ← hn]⟩
    · rw [hslots'] at hs
      rcases List.mem_append.mp hs with hs | hs
      · exact holds s hs
      · rw [List.mem_singleton.mp hs]
        rfl

end Opening

/-! ## What stays as it was set up -/

/-- The set-up of a bridge, and how many requests it has had. -/
structure Setting (config : Config) (n : Nat) (b : Bridge σ) : Prop where
  config_eq : b.config = config
  stem_eq : b.registry.stem = config.callbackStem
  count_eq : b.registry.count = n

namespace Setting

variable {config : Config} {n : Nat} {b : Bridge σ} (hb : Setting config n b)
include hb

theorem of_eq {c : Bridge σ} (hconfig : c.config = b.config) (hstem : c.registry.stem = b.registry.stem)
    (hcount : c.registry.count = b.registry.count) : Setting config n c :=
  ⟨hconfig.trans hb.config_eq, hstem.trans hb.stem_eq, hcount.trans hb.count_eq⟩

theorem settle (id : String) (v : Settlement) : Setting config n (b.settle id v).2 := by
  have hreg : (b.settle id v).2.registry = (b.registry.settle b.clock id v).2.2 := registry_after ..
  refine hb.of_eq (config_after ..) ?_ ?_ <;> rw [hreg, Registry.settle] <;> split <;> rfl

theorem forget (id : String) : Setting config n (b.forget id) := by
  have hreg : (b.forget id).registry = (b.registry.forget b.clock id).2.2 := registry_after ..
  refine hb.of_eq (config_after ..) ?_ ?_ <;> rw [hreg, Registry.forget] <;> split <;> rfl

theorem attachTimer (id : String) (t : Nat) : Setting config n (b.attachTimer id t) := by
  have hreg : (b.attachTimer id t).registry = (b.registry.attachTimer id t).2 := registry_after ..
  refine hb.of_eq (config_after ..) ?_ ?_ <;> rw [hreg, Registry.attachTimer] <;> split <;> rfl

theorem attachGuard (id : String) (g : Artefact) : Setting config n (b.attachGuard id g) := by
  have hreg : (b.attachGuard id g).registry = (b.registry.attachGuard id g).2 := registry_after ..
  refine hb.of_eq (config_after ..) ?_ ?_ <;> rw [hreg, Registry.attachGuard] <;> split <;> rfl

theorem armTimer {c : Bridge σ} {id : String} {ms : Nat} (ha : b.armTimer id ms = .ok c) :
    Setting config n c := by
  rw [armTimer_ok ha]
  have harmed : Setting config n (b.armed id ms) := hb.of_eq rfl rfl rfl
  exact harmed.attachTimer id _

theorem missed (u : String) : Setting config n (b.missed u) := by
  obtain ⟨page, hmissed⟩ := missed_eq b u
  rw [hmissed]
  exact hb.of_eq rfl rfl rfl

theorem trigger {c : Bridge σ} {id u : String} (ht : b.trigger id u = .ok c) : Setting config n c := by
  rcases trigger_ok ht with ⟨-, rfl⟩ | ⟨-, e, page, -, rfl⟩
  · have hasked : Setting config n (b.asked id u) := hb.of_eq rfl rfl rfl
    exact hasked.attachGuard id _
  · obtain ⟨ready, hshown⟩ := shown_eq b page
    have hsame : Setting config n (b.shown page) := by
      rw [hshown]
      exact hb.of_eq rfl rfl rfl
    exact hsame.attachGuard id _

end Setting

namespace Guarded

variable {b : Bridge σ} (hb : Guarded b)
include hb

theorem settle (id : String) (v : Settlement) : Guarded (b.settle id v).2 := by
  have hreg : (b.settle id v).2.registry = (b.registry.settle b.clock id v).2.2 := registry_after ..
  intro s hs
  rw [hreg, Registry.settle] at hs
  split at hs
  · exact hb s hs
  · exact hb s (List.mem_filter.mp hs).1

theorem forget (id : String) : Guarded (b.forget id) := by
  have hreg : (b.forget id).registry = (b.registry.forget b.clock id).2.2 := registry_after ..
  intro s hs
  rw [hreg, Registry.forget] at hs
  split at hs
  · exact hb s hs
  · exact hb s (List.mem_filter.mp hs).1

end Guarded

/-! ## What the page shows -/

/-- The URL of the request of a number, where `calls` are all requests that were made. -/
def requestUrl? (config : Config) (calls : List (String × Args)) (n : Nat) : Option String :=
  calls[n]?.bind fun call =>
    (config.codec.encode call.1 call.2 (Registry.idOf config.callbackStem n)).toOption

/-- The page shows the requests that wait, of all `calls`, and the scripts of its own. -/
structure Shows (config : Config) (calls : List (String × Args)) (srcs : List String) (b : Bridge σ) :
    Prop where
  setting : Setting config calls.length b
  mirror : Mirror (requestUrl? config calls) srcs b
  guarded : Guarded b

/-- Sources of the requests that wait, newest first. -/
def waitingSrcs (config : Config) (calls : List (String × Args)) (b : Bridge σ) : List (Option String) :=
  b.registry.numbers.reverse.map (requestUrl? config calls)

namespace Shows

variable {config : Config} {calls : List (String × Args)} {srcs : List String} {b : Bridge σ}
  (hb : Shows config calls srcs b)
include hb

/-- More requests to come do not matter. -/
theorem mirror_append (more : List (String × Args)) : Mirror (requestUrl? config (calls ++ more)) srcs b where
  transport := hb.mirror.transport
  sound := hb.mirror.sound
  layout := hb.mirror.layout
  source := by
    intro s hs g hg
    obtain ⟨e, rfl, he⟩ := hb.mirror.source s hs g hg
    refine ⟨e, rfl, he.trans ?_⟩
    have hlt : s.number < calls.length := hb.setting.count_eq ▸ hb.mirror.sound.number_lt s hs
    rw [requestUrl?, requestUrl?, List.getElem?_append_left hlt]

/-- **A call shows its request before all others, or fails without a trace.** -/
theorem call (path : String) (args : Args) (timeout : Option Nat) :
    Shows config (calls ++ [(path, args)]) srcs (b.call path args timeout).2 := by
  let url := requestUrl? config (calls ++ [(path, args)])
  let id := Registry.idOf config.callbackStem calls.length
  have hid : b.idOf b.registry.count = id := by
    rw [idOf, hb.setting.stem_eq, hb.setting.count_eq]
  have hopening : Opening url srcs id calls.length (b.registered path) := by
    refine ⟨(hb.mirror_append [(path, args)]).registered path, b.registry.slots, _, rfl, hid,
      hb.setting.count_eq, rfl, hb.guarded⟩
  have hsetting : Setting config (calls ++ [(path, args)]).length (b.registered path) := by
    refine ⟨hb.setting.config_eq, hb.setting.stem_eq, ?_⟩
    rw [List.length_append, ← hb.setting.count_eq]
    rfl
  rw [call_eq, hid]
  show Shows config (calls ++ [(path, args)]) srcs ((b.registered path).sent id path args timeout)
  exact sent_of (b := b.registered path)
    (P := fun c => Setting config (calls ++ [(path, args)]).length c ∧ Opening url srcs id calls.length c)
    (Q := Shows config (calls ++ [(path, args)]) srcs)
    (fun v hc => ⟨hc.1.settle id v, (hc.2.settle v).1, (hc.2.settle v).2⟩)
    (fun ms ha hc => ⟨hc.1.armTimer ha, hc.2.armTimer ha⟩)
    (fun {c c' u} henc ht hc => by
      -- the URL that is shown is the one that the request was written to
      have hu : url calls.length = some u := by
        have hconfig : (b.registered path).config = config := hb.setting.config_eq
        rw [hconfig] at henc
        simp only [url, requestUrl?, List.getElem?_concat_length, Option.bind_some]
        rw [henc]
        rfl
      obtain ⟨hmirror, hguarded⟩ := hc.2.trigger hu ht
      exact ⟨hc.1.trigger ht, hmirror, hguarded⟩)
    (fun {_ u _} hfail hc => ⟨hc.1.missed u, hc.2.missed hfail⟩)
    ⟨hsetting, hopening⟩ timeout

theorem same {c : Bridge σ} (hconfig : c.config = b.config) (hreg : c.registry = b.registry)
    (hpage : c.page = b.page) : Shows config calls srcs c :=
  ⟨hb.setting.of_eq hconfig (hreg ▸ rfl) (hreg ▸ rfl), hb.mirror.same hconfig hreg hpage,
    fun s hs => hb.guarded s (hreg ▸ hs)⟩

/-- A fetch that is answered by hand changes no scripts. -/
theorem reply (n : Nat) (r : FetchReply) : Shows config calls srcs (b.reply n r).2 := by
  obtain ⟨fetches, ready, heq⟩ := reply_eq b n r
  rw [heq]
  exact hb.same rfl rfl rfl

/-- A script of the page goes after all others. -/
theorem addPageScript (src : String) :
    Shows config calls (srcs ++ [src]) { b with page := (b.page.addPageScript src).2 } := by
  obtain ⟨hs, bs, own, hflat, hsplit, hown⟩ := hb.mirror.layout
  -- the new script takes a number that no other script has
  have hsrc : ∀ x, (b.page.addPageScript src).2.src? x = if x = b.page.next then some src else b.page.src? x :=
    fun x => Document.src?_withScript hflat.next_fresh _ src none x
  have hall : hs ++ bs = requestScripts b.registry ++ own := by
    rcases hsplit with ⟨rfl, rfl⟩ | ⟨rfl, rfl⟩ <;> rfl
  have hkeep : ∀ x ∈ requestScripts b.registry ++ own,
      (b.page.addPageScript src).2.src? x = b.page.src? x := fun x hx => by
    rw [hsrc, if_neg (hflat.ne_next (hflat.script_mem (hall ▸ hx)))]
  refine ⟨hb.setting.of_eq rfl rfl rfl, ⟨hb.mirror.transport, hb.mirror.sound,
    ⟨hs, bs ++ [b.page.next], own ++ [b.page.next], hflat.addPageScript src, ?_, ?_⟩,
    fun s hs g hg => ?_⟩, hb.guarded⟩
  · rcases hsplit with ⟨rfl, rfl⟩ | ⟨rfl, rfl⟩
    · exact .inl ⟨rfl, rfl⟩
    · exact .inr ⟨rfl, List.append_assoc ..⟩
  · rw [List.map_append, List.map_append, ← hown]
    congr 1
    · exact List.map_congr_left fun x hx => hkeep x (List.mem_append_right _ hx)
    · simp [hsrc]
  · obtain ⟨e, rfl, he⟩ := hb.mirror.source s hs g hg
    have hslot : slotScript? s = some e := by simp [slotScript?, hg, Artefact.element?]
    refine ⟨e, rfl, (hkeep e (List.mem_append_left _ ?_)).trans he⟩
    exact List.mem_reverse.mpr (List.mem_filterMap.mpr ⟨s, hs, hslot⟩)

/-- The scripts of requests load their URLs. -/
theorem map_src?_requestScripts :
    (requestScripts b.registry).map b.page.src? = waitingSrcs config calls b := by
  have hslots : ∀ slots : List (Slot Artefact Nat), (∀ s ∈ slots, s ∈ b.registry.slots) →
      (slots.filterMap slotScript?).map b.page.src? =
        (slots.map (·.number)).map (requestUrl? config calls) := by
    intro slots hsub
    induction slots with
    | nil => rfl
    | cons s slots ih =>
      have hs := hsub s List.mem_cons_self
      obtain ⟨g, hg⟩ := Option.isSome_iff_exists.mp (hb.guarded s hs)
      obtain ⟨e, rfl, he⟩ := hb.mirror.source s hs g hg
      have hslot : slotScript? s = some e := by simp [slotScript?, hg, Artefact.element?]
      rw [List.filterMap_cons_some hslot, List.map_cons, List.map_cons, List.map_cons, he,
        ih fun s hs => hsub s (List.mem_cons_of_mem _ hs)]
  rw [requestScripts, waitingSrcs, List.map_reverse, List.map_reverse, hslots _ fun _ h => h]
  rfl

/-- Which scripts are on the page, and how many. -/
theorem scripts : b.page.scriptSrcs.map some = waitingSrcs config calls b ++ srcs.map some ∧
    b.page.scriptCount = b.pendingCount + srcs.length := by
  obtain ⟨hs, bs, own, hflat, hsplit, hown⟩ := hb.mirror.layout
  have hall : hs ++ bs = requestScripts b.registry ++ own := by
    rcases hsplit with ⟨rfl, rfl⟩ | ⟨rfl, rfl⟩ <;> rfl
  have hsrcs : b.page.scriptSrcs.map some = (hs ++ bs).map b.page.src? := by
    rw [hflat.scriptSrcs_eq, List.map_filterMap_some_eq_filter_map_isSome, List.filter_eq_self]
    intro src? hsrc
    obtain ⟨e, he, rfl⟩ := List.mem_map.mp hsrc
    obtain ⟨src, hsrc⟩ := hflat.src_of_mem he
    rw [hsrc, Option.isSome_some]
  have heq : b.page.scriptSrcs.map some = waitingSrcs config calls b ++ srcs.map some := by
    rw [hsrcs, hall, List.map_append, hb.map_src?_requestScripts, hown]
  refine ⟨heq, ?_⟩
  have hlen := congrArg List.length heq
  rw [hsrcs, List.length_map, ← hflat.scriptCount_eq, List.length_append, waitingSrcs, List.length_map,
    List.length_reverse, Registry.length_numbers, List.length_map] at hlen
  exact hlen

end Shows

/-- What ends a request, and all that has nothing to do with requests, keeps what the page shows. -/
theorem invariant_shows (config : Config) (calls : List (String × Args)) (srcs : List String) :
    Invariant (fun b : Bridge σ => Shows config calls srcs b) where
  settle id v hb := ⟨hb.setting.settle id v, hb.mirror.settle id v, hb.guarded.settle id v⟩
  forget id hb := ⟨hb.setting.forget id, hb.mirror.forget id, hb.guarded.forget id⟩
  readInbox _ hb := hb.same rfl rfl rfl
  dropInbox _ hb := hb.same rfl rfl rfl
  answer _ hb := hb.same rfl rfl rfl
  takeLoads _ _ hb := ⟨hb.setting.of_eq rfl rfl rfl,
    hb.mirror.of_eq rfl rfl (fun _ _ hflat => hflat.congr rfl (Nat.le_refl _) rfl rfl) fun _ => rfl, hb.guarded⟩
  setPhase _ _ hb := hb.same rfl rfl rfl
  endAborted hb := hb.same rfl rfl rfl
  work _ _ _ _ _ hb := hb.same rfl rfl rfl
  pushes _ _ _ hb := hb.same rfl rfl rfl

/-! ## Runs -/

/-- A change of a page and its bridge. -/
inductive Change where
  | operation (op : Op)
  /-- The page gets a script of its own. -/
  | pageScript (src : String)

namespace Change

/-- The request that a change makes. -/
def request? : Change → Option (String × Args)
  | .operation op => op.request?
  | .pageScript _ => none

/-- The source of the script that the page gets. -/
def src? : Change → Option String
  | .operation _ => none
  | .pageScript src => some src

end Change

namespace Session

/-- One change. -/
def change (s : Session σ) : Change → Session σ
  | .operation op => (s.step op).2
  | .pageScript src => { s with bridge := { s.bridge with page := (s.bridge.page.addPageScript src).2 } }

/-- Several changes. -/
def changed (s : Session σ) (cs : List Change) : Session σ := cs.foldl change s

/-- Whatever changes, the page shows the requests that wait and the scripts of its own. -/
theorem shows_change {s : Session σ} {config : Config} {calls : List (String × Args)} {srcs : List String}
    (hs : Shows config calls srcs s.bridge) (c : Change) :
    Shows config (calls ++ c.request?.toList) (srcs ++ c.src?.toList) (s.change c).bridge := by
  cases c with
  | pageScript src =>
    rw [Change.request?, Option.toList_none, List.append_nil]
    exact hs.addPageScript src
  | operation op =>
    rw [Change.src?, Option.toList_none, List.append_nil, Change.request?]
    have hreply : ∀ n r, op = .reply n r → Shows config calls srcs (s.bridge.reply n r).2 :=
      fun n r _ => hs.reply n r
    cases hop : op.request? with
    | none =>
      rw [Option.toList_none, List.append_nil]
      refine (invariant_shows config calls srcs).step op (fun path args hreq => ?_) hreply hs
      cases hop.symm.trans hreq
    | some request =>
      cases op with
      | call path args timeout =>
        obtain rfl := Option.some.inj hop
        exact hs.call path args timeout
      | callNamed name path args =>
        obtain rfl := Option.some.inj hop
        have hregistered : Shows config calls srcs (s.bridge.registerHandler name).2 := hs.same rfl rfl rfl
        exact hregistered.call path args none
      | _ => cases hop

theorem shows_changed {s : Session σ} {config : Config} {calls : List (String × Args)} {srcs : List String}
    (hs : Shows config calls srcs s.bridge) (cs : List Change) :
    Shows config (calls ++ cs.filterMap Change.request?) (srcs ++ cs.filterMap Change.src?) (s.changed cs).bridge := by
  induction cs generalizing s calls srcs with
  | nil =>
    rw [List.filterMap_nil, List.filterMap_nil, List.append_nil, List.append_nil]
    exact hs
  | cons c cs ih =>
    -- requests and sources are counted on from where the first change has left them
    have h := ih (shows_change hs c)
    rw [List.append_assoc, List.append_assoc] at h
    have hcons : ∀ {α : Type} (f : Change → Option α),
        (f c).toList ++ cs.filterMap f = (c :: cs).filterMap f := by
      intro α f
      rw [List.filterMap_cons]
      cases f c <;> rfl
    rw [hcons, hcons] at h
    exact h

end Session

/-- A fresh page shows its own scripts. -/
theorem shows_new {config : Config} {runtime withHead : Bool} {srcs : List String} {host : Host σ} {b : Bridge σ}
    (hb : Bridge.new config .scriptTag runtime (.withScripts withHead srcs) host = .ok b) :
    Shows config [] srcs b := by
  obtain ⟨-, htransport, rfl⟩ := new_eq_ok hb
  obtain ⟨bs, hflat, hsrcs⟩ := Document.flat_withScripts withHead srcs
  refine ⟨⟨rfl, rfl, rfl⟩, ⟨htransport.symm, sound_new hb, ⟨[], bs, bs, hflat, .inl ⟨rfl, rfl⟩, hsrcs⟩, ?_⟩, ?_⟩
  · exact fun s hs => by cases hs
  · exact fun s hs => by cases hs

/-- A fresh bridge over script tags, to a host that answers nothing by itself and a page without head. -/
def shownBridge : Bridge Unit :=
  fresh .scriptTag true (.build false) ⟨.manual, .empty, (), Config.scriptTag.codec, true, []⟩

theorem new_shown : Bridge.new .scriptTag .scriptTag true (.build false) shownBridge.host = .ok shownBridge := rfl

namespace Session

/-- **The page shows the requests that wait, newest first, and then its own scripts** in the order they
came, and there are no other scripts. -/
theorem scripts_run {config : Config} {runtime withHead : Bool} {host : Host σ} {b : Bridge σ}
    (hb : Bridge.new config .scriptTag runtime (.build withHead) host = .ok b) (cs : List Change) :
    let after := ((new b).changed cs).bridge
    let calls := cs.filterMap Change.request?
    let srcs := cs.filterMap Change.src?
    after.page.scriptSrcs.map some = after.registry.numbers.reverse.map (requestUrl? config calls) ++ srcs.map some ∧
      after.page.scriptCount = after.pendingCount + srcs.length := by
  have hb' : Bridge.new config .scriptTag runtime (.withScripts withHead []) host = .ok b := hb
  have h := shows_changed (s := new b) (shows_new hb') cs
  rw [List.nil_append, List.nil_append] at h
  exact h.scripts

/-- A call goes before the script that the page has got before, and a call that was canceled is gone. -/
theorem scripts_run_before_page_script :
    let cs : List Change := [.pageScript "own.js", .operation (.call "/a" .none none),
      .operation (.call "/b" .none none), .operation (.cancel 0)]
    let after := ((new shownBridge).changed cs).bridge
    Bridge.new .scriptTag .scriptTag true (.build false) shownBridge.host = .ok shownBridge ∧
      after.registry.numbers = [1] ∧
      after.page.scriptSrcs.map some =
        [requestUrl? .scriptTag [("/a", .none), ("/b", .none)] 1, some "own.js"] ∧
      after.page.scriptCount = 2 :=
  have h := scripts_run new_shown [.pageScript "own.js", .operation (.call "/a" .none none),
      .operation (.call "/b" .none none), .operation (.cancel 0)]
  ⟨new_shown, rfl, h.1, h.2⟩

end Session

end Hostlink.Bridge
