import Hostlink.Proofs.Document
import Hostlink.Proofs.Bridge.Invariants

/-!
# What a bridge keeps

* `Bridge.frame`, `Bridge.invariant_frame` — the set-up of both sides never changes;
* `Bridge.Traced`, `Bridge.invariant_traced` — timers and fetches belong to requests that were made,
  and a request guards its own fetch only;
* `Session.frame_run`, `Session.traced_run` — the same after a run;
* `Session.setUp_run` — both sides are after a run as they were set up.
-/

namespace Hostlink

/-! ## Set-up -/

/-- The set-up of a host. -/
def Host.frame {σ : Type} (h : Host σ) : Conduct × RouteTable σ × Codec × Bool :=
  (h.conduct, h.table, h.codec, h.connected)

theorem Host.frame_answer {σ : Type} (h : Host σ) (url : String) : (h.answer url).2.frame = h.frame := by
  unfold Host.answer
  split
  · rfl
  · dsimp only
    split <;> rfl

theorem Host.frame_fetch {σ : Type} (h : Host σ) (url : String) : (h.fetch url).2.frame = h.frame := by
  have hanswer := Host.frame_answer h url
  unfold Host.fetch
  split
  · rfl
  · rfl
  · split
    all_goals
      next heq =>
        rw [heq] at hanswer
        exact hanswer

theorem Document.head_remove (d : Document) (e : Element) : (d.remove e).head = d.head := by
  obtain ⟨nodes, hremove⟩ := d.remove_eq e
  rw [hremove]

theorem Document.loads_remove (d : Document) (e : Element) : (d.remove e).loads = d.loads := by
  obtain ⟨nodes, hremove⟩ := d.remove_eq e
  rw [hremove]

theorem Document.head_load (d : Document) (e : Element) : (d.load e).head = d.head := by
  unfold Document.load
  split <;> rfl

namespace Bridge

variable {σ : Type}

/-- What holds of a page with a new script, outside or in any place, holds of it after the script was
inserted. -/
theorem insertScript_of {P : Document → Prop} (page : Document) (url : String) (create : P (page.createScript url).2)
    (place : ∀ parent at?, P (((page.createScript url).2.attach parent page.next at?).load page.next))
    (remove : ∀ d, P d → P (d.remove page.next)) : P (insertScript page url).2 := by
  have hclose : ∀ r : Bool × Document, P r.2 →
      P (if r.1 = true then (some page.next, r.2) else (none, r.2.remove page.next)).2 := by
    intro r hr
    split
    · exact hr
    · exact remove _ hr
  unfold insertScript
  refine hclose _ ?_
  split
  · unfold Document.insertBefore
    split
    · exact create
    · split
      · exact create
      · exact place _ _
  · split
    · unfold Document.append
      split
      · exact place _ _
      · exact create
    · exact create

theorem head_insertScript (page : Document) (url : String) : (insertScript page url).2.head = page.head :=
  insertScript_of (P := fun d => d.head = page.head) page url rfl (fun _ _ => Document.head_load _ _)
    fun d hd => (Document.head_remove d _).trans hd

theorem head_missed (b : Bridge σ) (url : String) : (b.missed url).page.head = b.page.head := by
  unfold missed
  cases b.config.transport with
  | fetch => rfl
  | scriptTag => exact head_insertScript b.page url

/-- A URL that is not handed over is not loaded. -/
theorem loads_missed {b : Bridge σ} {id url : String} {e : Rejection} (h : b.trigger id url = .error e) :
    (b.missed url).page.loads = b.page.loads := by
  rcases trigger_error h with ⟨-, -, -, hmissed⟩ | ⟨-, hnone, -, hmissed⟩
  · rw [hmissed]
  · rw [hmissed]
    show (insertScript b.page url).2.loads = b.page.loads
    rw [insertScript_none hnone, Document.loads_remove]
    rfl

/-- What never changes: the set-up of the bridge and of its host, and the head of the page. -/
def frame (b : Bridge σ) : Config × Bool × (Conduct × RouteTable σ × Codec × Bool) × Option Element :=
  (b.config, b.runtime, b.host.frame, b.page.head)

theorem frame_after (b : Bridge σ) (effects : List (Effect Artefact Nat)) (r : Registry Artefact Nat) :
    (b.after effects r).frame = b.frame := by
  refine foldl_perform_of frame effects (fun e _ b => ?_) _
  rcases e with _ | (e | _) | _ | _ | _
  case release.script => simp [frame, perform, Document.head_remove]
  all_goals rfl

theorem invariant_frame (f : Config × Bool × (Conduct × RouteTable σ × Codec × Bool) × Option Element) :
    Invariant (fun b : Bridge σ => b.frame = f) where
  settle id v h := (frame_after _ _ _).trans h
  forget id h := (frame_after _ _ _).trans h
  readInbox _ h := h
  dropInbox _ h := h
  answer url h := by
    rw [← h, frame, Host.frame_answer]
    rfl
  takeLoads _ _ h := h
  setPhase _ _ h := h
  endAborted h := h
  work _ _ _ _ _ h := h
  pushes _ _ _ h := h

theorem frame_armTimer {b b' : Bridge σ} {id : String} {ms : Nat} (h : b.armTimer id ms = .ok b') :
    b'.frame = b.frame := by
  rw [armTimer_ok h]
  exact frame_after (b.armed id ms) _ _

theorem frame_trigger {b b' : Bridge σ} {id url : String} (h : b.trigger id url = .ok b') : b'.frame = b.frame := by
  rcases trigger_ok h with ⟨-, rfl⟩ | ⟨-, e, page, hins, rfl⟩
  · refine (frame_after (b.asked id url) _ _).trans ?_
    rw [frame, asked, Host.frame_fetch]
    rfl
  · obtain ⟨ready, hshown⟩ := shown_eq b page
    have hpage : page.head = b.page.head := by
      have := head_insertScript b.page url
      rwa [hins] at this
    refine (frame_after (b.shown page) _ _).trans ?_
    rw [hshown, frame, hpage]
    rfl

theorem frame_missed (b : Bridge σ) (url : String) : (b.missed url).frame = b.frame := by
  have hhead := head_missed b url
  obtain ⟨page, hmissed⟩ := missed_eq b url
  rw [hmissed] at hhead ⊢
  rw [frame, frame, hhead]

theorem frame_call (b : Bridge σ) (path : String) (args : Args) (timeout : Option Nat) :
    (b.call path args timeout).2.frame = b.frame :=
  call_of (P := fun c => c.frame = b.frame) (fun _ h => h) (fun _ _ h => (frame_after _ _ _).trans h)
    (fun _ _ harm h => (frame_armTimer harm).trans h) (fun _ _ htrigger h => (frame_trigger htrigger).trans h)
    (fun _ url _ _ h => (frame_missed _ url).trans h) rfl path args timeout

theorem frame_reply (b : Bridge σ) (n : Nat) (r : FetchReply) : (b.reply n r).2.frame = b.frame := by
  obtain ⟨fetches, ready, heq⟩ := reply_eq b n r
  exact (congrArg frame heq).trans rfl

theorem frame_new {config : Config} {actual : Transport} {runtime : Bool} {page : Document} {host : Host σ}
    {b : Bridge σ} (hb : Bridge.new config actual runtime page host = .ok b) :
    b.frame = (config, runtime, host.frame, page.head) := by
  obtain ⟨-, -, rfl⟩ := new_eq_ok hb
  rfl

/-- **The set-up of both sides never changes.** -/
theorem Session.frame_run (s : Session σ) (ops : List Op) : (s.run ops).bridge.frame = s.bridge.frame :=
  (invariant_frame s.bridge.frame).run ops (fun b path args timeout h => (frame_call b path args timeout).trans h)
    (fun n r _ b h => (frame_reply b n r).trans h) rfl

/-- Both sides are after a run as they were set up. -/
theorem Session.setUp_run {config : Config} {actual : Transport} {runtime : Bool} {page : Document} {host : Host σ}
    {b : Bridge σ} (hb : Bridge.new config actual runtime page host = .ok b) (ops : List Op) :
    let c := ((new b).run ops).bridge
    c.config = config ∧ c.runtime = runtime ∧ c.host.frame = host.frame ∧ c.page.head = page.head := by
  have h : ((new b).run ops).bridge.frame = _ := (frame_run (new b) ops).trans (frame_new hb)
  simpa only [frame, Prod.mk.injEq] using h

/-! ## Timers and fetches -/

/-- The requests that fetches belong to. -/
def fetchIds (b : Bridge σ) : List String := b.fetches.map Fetch.id

/-- What a change of one element does not touch, it does not touch in the list. -/
theorem map_modify_of {α β : Type} (l : List α) (n : Nat) {f : α → α} {g : α → β} (hf : ∀ x, g (f x) = g x) :
    (l.modify n f).map g = l.map g := by
  refine List.ext_getElem? fun i => ?_
  rw [List.getElem?_map, List.getElem?_map, List.getElem?_modify]
  cases l[i]? with
  | none => rfl
  | some x =>
    dsimp only [Option.map_eq_map, Option.map_some, id]
    split
    · rw [hf]
    · rfl

/-- Nor does another element in its place that is the same as far as is looked. -/
theorem map_set_of {α β : Type} {l : List α} {n : Nat} {x y : α} {g : α → β} (hx : l[n]? = some x)
    (hy : g y = g x) : (l.set n y).map g = l.map g := by
  refine List.ext_getElem? fun i => ?_
  rw [List.getElem?_map, List.getElem?_map, List.getElem?_set]
  split
  · next hi =>
    subst hi
    split
    · rw [hx, Option.map_some, Option.map_some, hy]
    · next hlt => rw [List.getElem?_eq_none (Nat.not_lt.mp hlt)]
  · rfl

theorem id_abort (f : Fetch) : (Fetch.abort f).id = f.id := by
  unfold Fetch.abort
  split <;> rfl

theorem fetchIds_after (b : Bridge σ) (effects : List (Effect Artefact Nat)) (r : Registry Artefact Nat) :
    (b.after effects r).fetchIds = b.fetchIds := by
  refine foldl_perform_of fetchIds effects (fun e _ b => ?_) _
  rcases e with _ | (_ | n) | _ | _ | _
  case release.fetch => exact map_modify_of b.fetches n id_abort
  all_goals rfl

theorem timers_after (b : Bridge σ) (effects : List (Effect Artefact Nat)) (r : Registry Artefact Nat) :
    (b.after effects r).timers = b.timers :=
  foldl_perform_of Bridge.timers effects (fun e _ b => by rcases e with _ | (_ | _) | _ | _ | _ <;> rfl) _

/-- The ids of requests that were made. -/
def Issued (b : Bridge σ) (id : String) : Prop := ∃ n < b.registry.count, id = b.idOf n

theorem Issued.of_eq {b c : Bridge σ} {id : String} (h : b.Issued id) (hstem : c.registry.stem = b.registry.stem)
    (hcount : b.registry.count ≤ c.registry.count) : c.Issued id := by
  obtain ⟨n, hn, rfl⟩ := h
  exact ⟨n, Nat.lt_of_lt_of_le hn hcount, by rw [idOf, idOf, hstem]⟩

theorem frame_attachTimer (r : Registry Artefact Nat) (id : String) (t : Nat) :
    (r.attachTimer id t).2.stem = r.stem ∧ (r.attachTimer id t).2.count = r.count := by
  unfold Registry.attachTimer
  split <;> exact ⟨rfl, rfl⟩

theorem Issued.armTimer {b c : Bridge σ} {id id' : String} {ms : Nat} (h : b.Issued id)
    (ha : b.armTimer id' ms = .ok c) : c.Issued id := by
  obtain ⟨hstem, hcount⟩ := frame_attachTimer (b.armed id' ms).registry id' b.timers.length
  have harmed : (b.armed id' ms).Issued id := h
  rw [armTimer_ok ha]
  refine harmed.of_eq ?_ ?_
  · rw [Bridge.attachTimer, registry_after, hstem]
  · rw [Bridge.attachTimer, registry_after, hcount]

theorem Issued.missed {b : Bridge σ} {id : String} (h : b.Issued id) (url : String) : (b.missed url).Issued id := by
  obtain ⟨page, hmissed⟩ := missed_eq b url
  rw [hmissed]
  exact h

/-- The requests that timers belong to. -/
def timerIds (b : Bridge σ) : List String := b.timers.map Timer.id

/-- Timers and fetches belong to requests that were made. A request guards its own fetch and its own
timer only. -/
structure Traced (b : Bridge σ) : Prop where
  timers : ∀ t ∈ b.timers, b.Issued t.id
  fetches : ∀ id ∈ b.fetchIds, b.Issued id
  linked : ∀ s ∈ b.registry.slots, ∀ n, s.guard = some (.fetch n) → b.fetchIds[n]? = some s.id
  timed : ∀ s ∈ b.registry.slots, ∀ n, s.timer = some n → b.timerIds[n]? = some s.id

namespace Traced

variable {b c : Bridge σ} (hb : b.Traced)
include hb

/-- More requests may have been made, and others may be gone. -/
theorem of_eq (hstem : c.registry.stem = b.registry.stem) (hcount : b.registry.count ≤ c.registry.count)
    (hslots : ∀ s ∈ c.registry.slots, ∀ n, s.guard = some (.fetch n) →
      ∃ s' ∈ b.registry.slots, s'.guard = s.guard ∧ s'.id = s.id)
    (htimed : ∀ s ∈ c.registry.slots, ∀ n, s.timer = some n → b.timerIds[n]? = some s.id)
    (htimers : c.timers = b.timers) (hfetches : c.fetchIds = b.fetchIds) : c.Traced := by
  have hissued : ∀ {id}, b.Issued id → c.Issued id := fun h => h.of_eq hstem hcount
  refine ⟨fun t ht => hissued (hb.timers t (htimers ▸ ht)), fun id hid => hissued (hb.fetches id (hfetches ▸ hid)),
    fun s hs n hg => ?_, fun s hs n ht => ?_⟩
  · obtain ⟨s', hs', hguard, hid⟩ := hslots s hs n hg
    rw [hfetches, ← hid]
    exact hb.linked s' hs' n (hguard.trans hg)
  · rw [timerIds, htimers]
    exact htimed s hs n ht

theorem same (hreg : c.registry = b.registry) (htimers : c.timers = b.timers)
    (hfetches : c.fetchIds = b.fetchIds) : c.Traced :=
  hb.of_eq (by rw [hreg]) (by rw [hreg]) (fun s hs n _ => ⟨s, hreg ▸ hs, rfl, rfl⟩)
    (fun s hs => hb.timed s (hreg ▸ hs)) htimers hfetches

/-- Effects leave nothing behind that is not traced, whichever request is gone. -/
theorem after (effects : List (Effect Artefact Nat)) {r : Registry Artefact Nat} {id : String}
    (hr : r = b.registry ∨ r = b.registry.erase id) : (b.after effects r).Traced := by
  have hold : ∀ s ∈ (b.after effects r).registry.slots, s ∈ b.registry.slots := by
    intro s hs
    rw [registry_after] at hs
    rcases hr with rfl | rfl
    · exact hs
    · exact (List.mem_filter.mp hs).1
  refine hb.of_eq ?_ ?_ (fun s hs n _ => ⟨s, hold s hs, rfl, rfl⟩) (fun s hs => hb.timed s (hold s hs))
    (timers_after b effects r) (fetchIds_after b effects r)
  · rw [registry_after]
    rcases hr with rfl | rfl <;> rfl
  · rw [registry_after]
    rcases hr with rfl | rfl <;> exact Nat.le_refl _

theorem settle (id : String) (v : Settlement) : (b.settle id v).2.Traced := by
  have hr : (b.registry.settle b.clock id v).2.2 = b.registry ∨
      (b.registry.settle b.clock id v).2.2 = b.registry.erase id := by
    unfold Registry.settle
    split
    · exact .inl rfl
    · exact .inr rfl
  exact hb.after _ hr

theorem forget (id : String) : (b.forget id).Traced := by
  have hr : (b.registry.forget b.clock id).2.2 = b.registry ∨
      (b.registry.forget b.clock id).2.2 = b.registry.erase id := by
    unfold Registry.forget
    split
    · exact .inl rfl
    · exact .inr rfl
  exact hb.after _ hr

theorem registered (path : String) : (b.registered path).Traced := by
  refine hb.of_eq rfl (Nat.le_succ _) (fun s hs n hg => ?_) (fun s hs n ht => ?_) rfl rfl
  · rcases List.mem_append.mp hs with hs | hs
    · exact ⟨s, hs, rfl, rfl⟩
    · rw [List.mem_singleton.mp hs] at hg
      cases hg
  · rcases List.mem_append.mp hs with hs | hs
    · exact hb.timed s hs n ht
    · rw [List.mem_singleton.mp hs] at ht
      cases ht

/-- A timer of a request that was made. -/
theorem armed {id : String} (hid : b.Issued id) (ms : Nat) : (b.armed id ms).Traced where
  timers t ht := by
    rcases List.mem_append.mp ht with ht | ht
    · exact hb.timers t ht
    · rw [List.mem_singleton.mp ht]
      exact hid
  fetches := hb.fetches
  linked := hb.linked
  timed s hs n ht := by
    have h := hb.timed s hs n ht
    have hlt := (List.getElem?_eq_some_iff.mp h).1
    rw [timerIds, Bridge.armed, List.map_append]
    exact (List.getElem?_append_left hlt).trans h

/-- A request is given a timer of its own. -/
theorem attachTimer {id : String} {t : Nat} (hown : b.timerIds[t]? = some id) : (b.attachTimer id t).Traced := by
  obtain ⟨hstem, hcount⟩ := frame_attachTimer b.registry id t
  refine hb.of_eq ?_ ?_ ?_ ?_ (timers_after b _ _) (fetchIds_after b _ _)
  · rw [Bridge.attachTimer, registry_after, hstem]
  · rw [Bridge.attachTimer, registry_after, hcount]
  · intro s hs n hg
    rw [Bridge.attachTimer, registry_after, Registry.attachTimer] at hs
    split at hs
    · obtain ⟨s', hs', rfl⟩ := List.mem_map.mp hs
      refine ⟨s', hs', ?_, ?_⟩ <;> split <;> rfl
    · exact ⟨s, hs, rfl, rfl⟩
  · intro s hs n ht
    rw [Bridge.attachTimer, registry_after, Registry.attachTimer] at hs
    split at hs
    · obtain ⟨s', hs', rfl⟩ := List.mem_map.mp hs
      split at ht
      · next hid =>
        rw [if_pos hid, hid, ← Option.some.inj ht]
        exact hown
      · next hid =>
        rw [if_neg hid]
        exact hb.timed s' hs' n ht
    · exact hb.timed s hs n ht

/-- A fetch of a request that was made. -/
theorem asked {id : String} (hid : b.Issued id) (url : String) : (b.asked id url).Traced where
  timers := hb.timers
  fetches id' hid' := by
    rw [fetchIds, Bridge.asked, List.map_append] at hid'
    rcases List.mem_append.mp hid' with h | h
    · exact hb.fetches id' h
    · rw [List.mem_singleton.mp h]
      exact hid
  linked s hs n hg := by
    have h := hb.linked s hs n hg
    have hlt := (List.getElem?_eq_some_iff.mp h).1
    rw [fetchIds, Bridge.asked, List.map_append]
    exact (List.getElem?_append_left hlt).trans h
  timed := hb.timed

/-- A request is given a script, or a fetch of its own. -/
theorem attachGuard {id : String} {g : Artefact} (hg : ∀ n, g = .fetch n → b.fetchIds[n]? = some id) :
    (b.attachGuard id g).Traced := by
  have hreg : (b.attachGuard id g).registry = (b.registry.attachGuard id g).2 := registry_after ..
  have hfetches : (b.attachGuard id g).fetchIds = b.fetchIds := fetchIds_after ..
  have htimers : (b.attachGuard id g).timers = b.timers := timers_after ..
  unfold Registry.attachGuard at hreg
  cases hf : b.registry.find? id with
  | none =>
    rw [hf] at hreg
    exact hb.same hreg htimers hfetches
  | some slot =>
    rw [hf] at hreg
    -- numbers of requests stay, and one slot has one artefact more, which is the fetch of that request
    refine ⟨fun t ht => ?_, fun id' hid' => ?_, fun s hs n hs' => ?_, fun s hs n ht => ?_⟩
    · rw [htimers] at ht
      obtain ⟨m, hm, heq⟩ := hb.timers t ht
      exact ⟨m, by rw [hreg]; exact hm, by rw [heq, idOf, idOf, hreg]; rfl⟩
    · rw [hfetches] at hid'
      obtain ⟨m, hm, heq⟩ := hb.fetches id' hid'
      exact ⟨m, by rw [hreg]; exact hm, by rw [heq, idOf, idOf, hreg]; rfl⟩
    · rw [hreg] at hs
      obtain ⟨s', hmem, rfl⟩ := List.mem_map.mp hs
      rw [hfetches]
      split
      · next hid =>
        rw [if_pos hid] at hs'
        dsimp only at hs' ⊢
        rw [hid]
        exact hg n (Option.some.inj hs')
      · next hid =>
        rw [if_neg hid] at hs'
        exact hb.linked s' hmem n hs'
    · rw [hreg] at hs
      obtain ⟨s', hmem, rfl⟩ := List.mem_map.mp hs
      rw [timerIds, htimers]
      split at ht
      · next hid =>
        rw [if_pos hid]
        exact hb.timed s' hmem n ht
      · next hid =>
        rw [if_neg hid]
        exact hb.timed s' hmem n ht

theorem armTimer {id : String} {ms : Nat} (hid : b.Issued id) (h : b.armTimer id ms = .ok c) : c.Traced := by
  rw [armTimer_ok h]
  refine (hb.armed hid ms).attachTimer ?_
  simp [timerIds, Bridge.armed]

theorem trigger {id url : String} (hid : b.Issued id) (h : b.trigger id url = .ok c) : c.Traced := by
  rcases trigger_ok h with ⟨-, rfl⟩ | ⟨-, e, page, -, rfl⟩
  · refine (hb.asked hid url).attachGuard fun n hn => ?_
    obtain rfl := Artefact.fetch.inj hn
    simp [fetchIds, Bridge.asked]
  · obtain ⟨ready, hshown⟩ := shown_eq b page
    have hsame : (b.shown page).Traced := by
      rw [hshown]
      exact hb.same rfl rfl rfl
    exact hsame.attachGuard fun n hn => by cases hn

theorem missed (url : String) : (b.missed url).Traced := by
  obtain ⟨page, hmissed⟩ := missed_eq b url
  rw [hmissed]
  exact hb.same rfl rfl rfl

theorem call (path : String) (args : Args) (timeout : Option Nat) : (b.call path args timeout).2.Traced := by
  have hid : (b.registered path).Issued (b.idOf b.registry.count) := ⟨b.registry.count, Nat.lt_succ_self _, rfl⟩
  rw [call_eq]
  refine sent_of (P := fun c => c.Traced ∧ c.Issued (b.idOf b.registry.count)) (fun v hc => hc.1.settle _ v)
    (fun ms harm hc => ⟨hc.1.armTimer hc.2 harm, hc.2.armTimer harm⟩) (fun _ htrigger hc => hc.1.trigger hc.2 htrigger)
    (fun {_ url _} _ hc => ⟨hc.1.missed url, hc.2.missed url⟩) ⟨hb.registered path, hid⟩ timeout

theorem reply (n : Nat) (r : FetchReply) : (b.reply n r).2.Traced := by
  rcases reply_cases b n r with heq | ⟨f, g, more, hf, hid, -, -, heq⟩ <;> rw [heq]
  · exact hb
  · exact hb.same rfl rfl (map_set_of hf hid)

end Traced

theorem invariant_traced : Invariant (fun b : Bridge σ => b.Traced) where
  settle id v hb := hb.settle id v
  forget id hb := hb.forget id
  readInbox _ hb := hb.same rfl rfl rfl
  dropInbox _ hb := hb.same rfl rfl rfl
  answer _ hb := hb.same rfl rfl rfl
  takeLoads _ _ hb := hb.same rfl rfl rfl
  setPhase n phase hb := hb.same rfl rfl (map_modify_of _ n fun _ => rfl)
  endAborted {b} hb := by
    refine hb.same rfl rfl ?_
    rw [fetchIds, Bridge.endAborted, List.map_map]
    refine List.map_congr_left fun f _ => ?_
    dsimp only [Function.comp_apply]
    split <;> rfl
  work _ _ _ _ _ hb := hb.same rfl rfl rfl
  pushes _ _ _ hb := hb.same rfl rfl rfl

theorem traced_new {config : Config} {actual : Transport} {runtime : Bool} {page : Document} {host : Host σ}
    {b : Bridge σ} (hb : Bridge.new config actual runtime page host = .ok b) : b.Traced := by
  obtain ⟨-, -, rfl⟩ := new_eq_ok hb
  exact ⟨fun _ ht => (by cases ht), fun _ hid => (by cases hid), fun _ hs => (by cases hs),
    fun _ hs => (by cases hs)⟩

/-- **Timers and fetches belong to requests**, after every run. -/
theorem Session.traced_run {s : Session σ} (hs : s.bridge.Traced) (ops : List Op) : (s.run ops).bridge.Traced :=
  invariant_traced.run ops (fun _ path args timeout hb => hb.call path args timeout)
    (fun n r _ _ hb => hb.reply n r) hs

end Bridge

end Hostlink
