import Hostlink.Proofs.Bridge.Dialogs
import Hostlink.Proofs.Bridge.Reached

/-!
# Calls that are refused

A call is refused where its request cannot be written, where a timer or a fetch would need a runtime and there
is none, and where the page has no place for a script. By then the request is registered, and may have a timer
and a script; what ends it takes all this back.

* `Bridge.Refusal` — why a call is refused;
* `Bridge.begun`, `Bridge.spent` — a bridge while a call is under way that will be refused, and after it;
* `Bridge.call_eq_spent` — **a call that is refused leaves a number, a log line and the error**;
* `Session.AsBefore` — what was seen of a session is seen of another;
* `Session.call_refused` — **a call that is refused leaves all else as it was**.
-/

namespace Hostlink.Bridge

variable {σ : Type}

/-- Why a call is refused at once. -/
inductive Refusal (b : Bridge σ) (path : String) (args : Args) (timeout : Option Nat) : Rejection → Prop where
  /-- The request cannot be written. -/
  | unwritten {e : EncodeError} (hurl : b.config.codec.encode path args (b.idOf b.registry.count) = .error e) :
    Refusal b path args timeout (.encode e)
  /-- A timer or a fetch needs a runtime. -/
  | noRuntime {url : String} (hurl : b.config.codec.encode path args (b.idOf b.registry.count) = .ok url)
    (hneeds : (timeout.or b.config.effectiveTimeout).isSome ∨ b.config.transport = .fetch)
    (hruntime : b.runtime = false) : Refusal b path args timeout .noRuntime
  /-- The page has neither a script nor a head. -/
  | noPlace {url : String} (hurl : b.config.codec.encode path args (b.idOf b.registry.count) = .ok url)
    (ht : b.config.transport = .scriptTag) (hruntime : b.runtime = true) (hscript : b.page.firstScript = none)
    (hhead : b.page.head = none) : Refusal b path args timeout noPlace

/-! ## While a call is under way -/

/-- The slot of a request that has just been registered, and may have been given a timer. -/
def newSlot (b : Bridge σ) (path : String) (timer : Option Nat) : Slot Artefact Nat :=
  ⟨b.idOf b.registry.count, b.registry.count, path, timer, none, b.clock⟩

/-- A bridge with a request that has just been registered. It may have a timer, and the page may have made a
script for it and taken it out again. -/
def begun (b : Bridge σ) (path : String) (timer : Option Nat) (timers : List Timer) (next : Element) : Bridge σ :=
  { b with
    registry := { b.registry with
      count := b.registry.count + 1
      slots := b.registry.slots ++ [b.newSlot path timer] }
    inboxes := b.inboxes ++ [.waiting]
    timers := b.timers ++ timers
    ready := b.ready ++ (timer.map Task.timer).toList
    page := { b.page with next := next } }

/-- A bridge after a request that was settled at once: its number is used up, and so are those of its timer and
of its script. -/
def spent (b : Bridge σ) (path : String) (v : Settlement) (timers : List Timer) (next : Element) : Bridge σ :=
  { b with
    registry := { b.registry with count := b.registry.count + 1 }
    inboxes := b.inboxes ++ [.holds v]
    timers := b.timers ++ timers
    page := { b.page with next := next }
    log := b.log.add (EventLog.requestLine (b.idOf b.registry.count) path (Registry.label v) 0) }

theorem registered_eq_begun (b : Bridge σ) (path : String) : b.registered path = b.begun path none [] b.page.next := by
  simp [begun, newSlot, registered, Registry.register, Inboxes.opened, idOf]

/-- What holds of a bridge whenever a call begins. -/
structure Orderly (b : Bridge σ) : Prop where
  sound : b.registry.Sound
  boxes : b.inboxes.length = b.registry.count
  /-- Only timers that have been made are ready or sleep. -/
  timers : ∀ m, b.Ticks m → m < b.timers.length
  page : b.config.transport = .scriptTag → ∃ hs bs, b.page.Flat hs bs

namespace Orderly

variable {b : Bridge σ} (hb : b.Orderly) (path : String)
include hb

theorem sound_registered : (b.registered path).registry.Sound := hb.sound.register path b.clock

theorem update_registered (timer : Option Nat) (timers : List Timer) (next : Element) :
    (b.registered path).registry.update (b.idOf b.registry.count) (fun s => { s with timer := timer }) =
      (b.begun path timer timers next).registry := by
  have hslots : (b.registered path).registry.slots = b.registry.slots ++ [b.newSlot path none] := rfl
  exact (hb.sound_registered path).update_last hslots _

theorem sound_begun (timer : Option Nat) (timers : List Timer) (next : Element) :
    (b.begun path timer timers next).registry.Sound := by
  rw [← hb.update_registered path timer timers next]
  exact (hb.sound_registered path).update _ _ (fun _ => rfl) fun _ => rfl

/-- The timer that is set for a new request. -/
theorem armTimer_registered (hruntime : b.runtime = true) (ms : Nat) :
    (b.registered path).armTimer (b.idOf b.registry.count) ms =
      .ok (b.begun path (some b.timers.length) [⟨b.idOf b.registry.count, b.clock + ms⟩] b.page.next) := by
  let timer : Timer := ⟨b.idOf b.registry.count, b.clock + ms⟩
  have hmem : b.newSlot path none ∈ (b.registered path).registry.slots :=
    List.mem_append_right _ (List.mem_singleton_self _)
  have hattach : (b.registered path).registry.attachTimer (b.idOf b.registry.count) b.timers.length =
      ([], (b.begun path (some b.timers.length) [timer] b.page.next).registry) := by
    rw [← hb.update_registered path]
    exact if_pos (Registry.isPending_iff.mpr ⟨_, hmem, rfl⟩)
  have harm : (b.registered path).armTimer (b.idOf b.registry.count) ms =
      .ok (((b.registered path).armed (b.idOf b.registry.count) ms).after
        ((b.registered path).registry.attachTimer (b.idOf b.registry.count) b.timers.length).1
        ((b.registered path).registry.attachTimer (b.idOf b.registry.count) b.timers.length).2) :=
    (armTimer_eq ..).trans (if_pos hruntime)
  rw [harm, hattach]
  rfl

/-- The timer of a new request is the last, and when it is stopped, no other is. -/
theorem stop_begun {timer : Option Nat} (htimer : ∀ n, timer = some n → n = b.timers.length) (timers : List Timer)
    (next : Element) (r : Registry Artefact Nat) :
    (timer.map Effect.abort).toList.foldl perform { b.begun path timer timers next with registry := r } =
      { b.begun path none timers next with registry := r } := by
  cases timer with
  | none => rfl
  | some n =>
    obtain rfl := htimer n rfl
    have hticks : ¬ b.Ticks b.timers.length := fun h => Nat.lt_irrefl _ (hb.timers _ h)
    have hready : b.ready.filter (· ≠ .timer b.timers.length) = b.ready :=
      List.filter_eq_self.mpr fun t ht => decide_eq_true fun h => hticks (.inl (h ▸ ht))
    have hsleepers : b.sleepers.filter (· ≠ b.timers.length) = b.sleepers :=
      List.filter_eq_self.mpr fun t ht => decide_eq_true fun h => hticks (.inr (h ▸ ht))
    simp only [begun, Option.map_some, Option.map_none, Option.toList_some, Option.toList_none, List.foldl_cons,
      List.foldl_nil, perform, List.filter_append, hready, hsleepers]
    simp

/-- What ends a new request stops its timer, and leaves only what is used up. -/
theorem settle_begun {timer : Option Nat} (htimer : ∀ n, timer = some n → n = b.timers.length) (timers : List Timer)
    (next : Element) (v : Settlement) :
    ((b.begun path timer timers next).settle (b.idOf b.registry.count) v).2 = b.spent path v timers next := by
  have hslots : (b.begun path timer timers next).registry.slots = b.registry.slots ++ [b.newSlot path timer] := rfl
  have hsound := hb.sound_begun path timer timers next
  have hfind : (b.begun path timer timers next).registry.find? (b.idOf b.registry.count) =
      some (b.newSlot path timer) := hsound.find?_last hslots
  have herase : (b.begun path timer timers next).registry.erase (b.idOf b.registry.count) =
      { b.registry with count := b.registry.count + 1 } := hsound.erase_last hslots
  have hbox : (b.inboxes ++ [.waiting] : Inboxes).deliver b.registry.count v = b.inboxes ++ [.holds v] :=
    hb.boxes ▸ b.inboxes.deliver_opened v
  simp only [settle, Registry.settle, hfind, herase, after, Registry.cleanup, newSlot, Option.map_none,
    Option.toList_none, List.append_nil, List.foldl_append, hb.stop_begun path htimer]
  simp [begun, spent, perform, hbox]

/-- A page without a script and without a head has no place for a script. -/
theorem insertScript_none_iff (ht : b.config.transport = .scriptTag) (url : String) :
    (insertScript b.page url).1 = none ↔ b.page.firstScript = none ∧ b.page.head = none := by
  obtain ⟨hs, bs, hflat⟩ := hb.page ht
  constructor
  · intro hnone
    rcases insertScript_flat hflat url with ⟨-, hhead, rfl, rfl⟩ | ⟨page, hs', bs', heq, -⟩
    · exact ⟨hflat.firstScript_eq, hhead⟩
    · rw [heq] at hnone
      cases hnone
  · rintro ⟨hscript, hhead⟩
    rw [hflat.firstScript_eq, List.head?_eq_none_iff, List.append_eq_nil_iff] at hscript
    obtain ⟨rfl, rfl⟩ := hscript
    exact insertScript_bare hflat hhead url

/-- A script that finds no place is forgotten. -/
theorem missed_begun (ht : b.config.transport = .scriptTag) {url : String} (hnone : (insertScript b.page url).1 = none)
    (timer : Option Nat) (timers : List Timer) :
    (b.begun path timer timers b.page.next).missed url = b.begun path timer timers (b.page.next + 1) := by
  obtain ⟨hs, bs, hflat⟩ := hb.page ht
  have hpage : (insertScript (b.begun path timer timers b.page.next).page url).2 =
      { b.page with next := b.page.next + 1 } := insertScript_flat_none hflat hnone
  have ht' : (b.begun path timer timers b.page.next).config.transport = .scriptTag := ht
  rw [missed, ht']
  dsimp only
  rw [hpage]
  rfl

end Orderly

/-! ## Requests that are not sent -/

section

variable {b : Bridge σ} {url : String}

theorem trigger_without_runtime (id url : String) (ht : b.config.transport = .fetch) (hruntime : b.runtime = false) :
    b.trigger id url = .error .noRuntime ∧ b.missed url = b := by
  constructor
  · rw [trigger, ht]
    dsimp only
    rw [triggerFetch_eq, hruntime]
    rfl
  · rw [missed, ht]

theorem trigger_without_place (id : String) (ht : b.config.transport = .scriptTag)
    (hnone : (insertScript b.page url).1 = none) : b.trigger id url = .error noPlace := by
  rw [trigger, ht]
  dsimp only
  rw [triggerScript_eq]
  rcases hinsert : insertScript b.page url with ⟨_ | e, page⟩
  · rfl
  · rw [hinsert] at hnone
    cases hnone

end

namespace Orderly

variable {b : Bridge σ} (hb : b.Orderly) {path url : String} {args : Args} {timeout : Option Nat}
  (hurl : b.config.codec.encode path args (b.idOf b.registry.count) = .ok url)
include hb

/-- A request that is settled before it was given its time leaves no timer. -/
theorem settle_registered (path : String) (v : Settlement) :
    ((b.registered path).settle (b.idOf b.registry.count) v).2 = b.spent path v [] b.page.next := by
  rw [registered_eq_begun]
  exact hb.settle_begun path (fun n hn => by cases hn) [] b.page.next v

include hurl

theorem sent_without_runtime (hneeds : (timeout.or b.config.effectiveTimeout).isSome ∨ b.config.transport = .fetch)
    (hruntime : b.runtime = false) :
    (b.registered path).sent (b.idOf b.registry.count) path args timeout =
      b.spent path (.error .noRuntime) [] b.page.next := by
  have hrun : (b.registered path).runtime = false := hruntime
  rw [← hb.settle_registered path, sent]
  rcases send_written (b := b.registered path) timeout hurl with ⟨d, hl, hsend⟩ | ⟨-, -, hsend⟩
  · -- without a limit, it is the fetch that needs a runtime
    cases hlimit : timeout.or (b.registered path).config.effectiveTimeout with
    | some ms =>
      rw [hlimit] at hl
      cases hrun.symm.trans hl.runtime_eq
    | none =>
      rw [hlimit] at hl
      obtain rfl : d = b.registered path := hl
      have hnone : timeout.or b.config.effectiveTimeout = none := hlimit
      have ht : (b.registered path).config.transport = .fetch := hneeds.resolve_left (by rw [hnone]; simp)
      obtain ⟨htrigger, hmissed⟩ := trigger_without_runtime (b.idOf b.registry.count) url ht hrun
      rw [hsend, htrigger, hmissed]
      rfl
  · rw [hsend]
    rfl

theorem sent_without_place (ht : b.config.transport = .scriptTag) (hruntime : b.runtime = true)
    (hnone : (insertScript b.page url).1 = none) :
    ∃ timers, (b.registered path).sent (b.idOf b.registry.count) path args timeout =
      b.spent path (.error noPlace) timers (b.page.next + 1) := by
  obtain ⟨ms, hlimit⟩ := Config.limit_of_scriptTag ht timeout
  rcases send_written (b := b.registered path) timeout hurl with ⟨d, hl, hsend⟩ | ⟨-, hrun, -⟩
  · have hlimit' : timeout.or (b.registered path).config.effectiveTimeout = some ms := hlimit
    rw [hlimit'] at hl
    let timer : Timer := ⟨b.idOf b.registry.count, b.clock + ms⟩
    obtain rfl : b.begun path (some b.timers.length) [timer] b.page.next = d :=
      Except.ok.inj ((hb.armTimer_registered path hruntime ms).symm.trans hl)
    have htrigger := trigger_without_place (b := b.begun path (some b.timers.length) [timer] b.page.next)
      (b.idOf b.registry.count) ht hnone
    refine ⟨[timer], ?_⟩
    rw [sent, hsend, htrigger, hb.missed_begun path ht hnone]
    exact hb.settle_begun path (fun n hn => (Option.some.inj hn).symm) _ _ _
  · cases hruntime.symm.trans hrun

end Orderly

/-- **A call that is refused leaves a number that is used up, a log line and the error.** -/
theorem call_eq_spent {b : Bridge σ} (hb : b.Orderly) {path : String} {args : Args} {timeout : Option Nat}
    {e : Rejection} (h : b.Refusal path args timeout e) :
    ∃ timers next, (b.call path args timeout).2 = b.spent path (.error e) timers next := by
  rw [call_eq]
  cases h with
  | unwritten hurl =>
    refine ⟨_, _, (?_ : (b.registered path).sent _ path args timeout = _).trans (hb.settle_registered path _)⟩
    rw [sent, send_unwritten (b := b.registered path) hurl]
    rfl
  | noRuntime hurl hneeds hruntime => exact ⟨_, _, hb.sent_without_runtime hurl hneeds hruntime⟩
  | noPlace hurl ht hruntime hscript hhead =>
    obtain ⟨timers, hsent⟩ := hb.sent_without_place hurl ht hruntime
      ((hb.insertScript_none_iff ht _).mpr ⟨hscript, hhead⟩)
    exact ⟨timers, _, hsent⟩

/-- There is no other reason for a call to fail. -/
theorem refusal_of_failure? {b : Bridge σ} (hb : b.Orderly) {path : String} {args : Args} {timeout : Option Nat}
    {e : Rejection} (h : b.failure? (b.idOf b.registry.count) path args timeout = some e) :
    b.Refusal path args timeout e := by
  unfold failure? at h
  cases hurl : b.config.codec.encode path args (b.idOf b.registry.count) with
  | error e =>
    rw [hurl] at h
    exact Option.some.inj h ▸ .unwritten hurl
  | ok url =>
    rw [hurl] at h
    dsimp only at h
    split at h
    · next hlimit =>
      rw [Bool.and_eq_true, Bool.not_eq_true'] at hlimit
      exact Option.some.inj h ▸ .noRuntime hurl (.inl hlimit.1) hlimit.2
    · next hlimit =>
      rw [triggerFailure?] at h
      cases ht : b.config.transport with
      | fetch =>
        rw [ht] at h
        dsimp only at h
        split at h
        · cases h
        · next hruntime => exact Option.some.inj h ▸ .noRuntime hurl (.inr ht) (by simpa using hruntime)
      | scriptTag =>
        rw [ht] at h
        dsimp only at h
        split at h
        · cases h
        · next hnone =>
          -- a script always has a limit, so that a bridge that gets this far has a runtime
          obtain ⟨ms, hms⟩ := Config.limit_of_scriptTag ht timeout
          have hruntime : b.runtime = true := by simpa [hms] using hlimit
          obtain ⟨hscript, hhead⟩ := (hb.insertScript_none_iff ht url).mp (by simpa using hnone)
          exact Option.some.inj h ▸ .noPlace hurl ht hruntime hscript hhead

/-! ## What is left -/

/-- What is found of a handle is told by the inboxes. -/
theorem pollHandle_congr {b c : Bridge σ} {handle : Handle}
    (hboxes : ∀ n, handle.request? = some n → c.inboxes.peek n = b.inboxes.peek n) (hdialogs : c.dialogs = b.dialogs) :
    (Session.pollHandle c handle).1 = (Session.pollHandle b handle).1 := by
  cases handle with
  | call n => exact congrArg Poll.ofInbox (hboxes n rfl)
  | dialog d => exact pollDialog_congr hboxes (by rw [hdialogs])

namespace Session

/-- What was seen of a session is seen of another. -/
structure AsBefore (s s' : Session σ) : Prop where
  /-- The same requests wait. -/
  pending : ∀ id, s'.bridge.registry.isPending id = s.bridge.registry.isPending id
  pendingCount : s'.bridge.pendingCount = s.bridge.pendingCount
  /-- What is held is the same, and the same is found of it. -/
  held : ∀ k < s.held.length,
    s'.held[k]? = s.held[k]? ∧ (s'.poll k).1 = (s.poll k).1 ∧ s'.isPending k = s.isPending k
  scriptSrcs : s'.bridge.page.scriptSrcs = s.bridge.page.scriptSrcs
  scriptCount : s'.bridge.page.scriptCount = s.bridge.page.scriptCount
  loads : s'.bridge.page.loads = s.bridge.page.loads
  /-- The host has seen the same requests, and no others are on their way to it. -/
  host : s'.bridge.host = s.bridge.host
  fetches : s'.bridge.fetches = s.bridge.fetches ∧ s'.bridge.fetched = s.bridge.fetched
  /-- Handlers, subscribers and dialogs are the same. -/
  pushes : s'.bridge.router = s.bridge.router ∧ s'.bridge.dialogs = s.bridge.dialogs ∧
    s'.bridge.deferred = s.bridge.deferred
  /-- The same timers run. -/
  timers : ∀ m, s'.bridge.Ticks m ↔ s.bridge.Ticks m

theorem Consistent.orderly {s : Session σ} (hs : s.Consistent) : s.bridge.Orderly := by
  obtain ⟨dues, htimed⟩ := hs.timed
  obtain ⟨h, hfollows, -⟩ := hs.kept
  refine ⟨htimed.sound, hfollows.length_eq.trans hfollows.count_eq.symm, fun m hticks => ?_, fun ht => ?_⟩
  · obtain ⟨slot, hslot, htimer⟩ := htimed.owned m hticks
    obtain ⟨t, hm, -⟩ := htimed.timer_of_slot hslot htimer
    exact (List.getElem?_eq_some_iff.mp hm).1
  · obtain ⟨config, calls, srcs, hshows⟩ := hs.shows ht
    obtain ⟨heads, bodies, -, hflat, -⟩ := hshows.mirror.layout
    exact ⟨heads, bodies, hflat⟩

/-- The same is found of an entry where its handle finds the same. -/
theorem poll_congr {s s' : Session σ} {k : Nat} (hheld : s'.held[k]? = s.held[k]?)
    (hfound : ∀ e, s.held[k]? = some e → (pollHandle s'.bridge e.handle).1 = (pollHandle s.bridge e.handle).1) :
    (s'.poll k).1 = (s.poll k).1 := by
  unfold poll
  rw [hheld]
  cases he : s.held[k]? with
  | none => rfl
  | some e =>
    have hfound := hfound e he
    dsimp only
    split
    · rfl
    · split
      · rcases hnew : pollHandle s'.bridge e.handle with ⟨found, handle, c⟩
        rcases hold : pollHandle s.bridge e.handle with ⟨found', handle', c'⟩
        rw [hnew, hold] at hfound
        obtain rfl : found = found' := hfound
        cases found <;> rfl
      · rfl

section

variable {s : Session σ} (hs : s.Consistent) (path : String) (e : Rejection) (timers : List Timer) (next : Element)
include hs

/-- A request that was settled at once is not seen by others. -/
theorem asBefore_spent (held : Held) :
    s.AsBefore ⟨s.bridge.spent path (.error e) timers next, s.held ++ [held]⟩ where
  pending _ := rfl
  pendingCount := rfl
  held k hk := by
    have hsame : (s.held ++ [held])[k]? = s.held[k]? := List.getElem?_append_left hk
    refine ⟨hsame, poll_congr hsame fun x hx => pollHandle_congr (fun n hn => ?_) rfl, ?_⟩
    · have hlt : n < s.bridge.inboxes.length := hs.orderly.boxes ▸ hs.request_lt hx hn
      exact (Inboxes.peek_concat ..).trans (if_neg (Nat.ne_of_lt hlt))
    · unfold isPending
      rw [hsame]
      rfl
  scriptSrcs := Document.scriptSrcs_of_nodes rfl
  scriptCount := rfl
  loads := rfl
  host := rfl
  fetches := ⟨rfl, rfl⟩
  pushes := ⟨rfl, rfl, rfl⟩
  timers _ := .rfl

/-- The timer of a request that was settled at once does not run. -/
theorem not_ticks_spent {m : Nat} {t : Timer}
    (ht : (s.bridge.spent path (.error e) timers next).timers[m]? = some t)
    (hid : t.id = s.bridge.idOf s.bridge.registry.count) : ¬ (s.bridge.spent path (.error e) timers next).Ticks m := by
  obtain ⟨dues, htimed⟩ := hs.timed
  intro hticks
  have hlt := hs.orderly.timers m hticks
  have hold : s.bridge.timers[m]? = some t := (List.getElem?_append_left hlt).symm.trans ht
  obtain ⟨n, hn, heq⟩ := htimed.traced.timers t (List.mem_of_getElem? hold)
  exact Nat.ne_of_lt hn (Registry.idOf_inj.mp (heq.symm.trans hid))

/-- Its caller reads the error. -/
theorem poll_spent (held : Held) (hheld : held = ⟨.call s.bridge.registry.count, true, none⟩) :
    (Session.poll ⟨s.bridge.spent path (.error e) timers next, s.held ++ [held]⟩ s.held.length).1 =
      .settled (.error e) := by
  have hpeek : (s.bridge.spent path (.error e) timers next).inboxes.peek s.bridge.registry.count =
      .holds (.error e) := (Inboxes.peek_concat ..).trans (if_pos hs.orderly.boxes.symm)
  subst hheld
  simp [poll, pollHandle, Bridge.poll, hpeek, Poll.ofInbox]

end

/-- A request that was settled at once does not wait. -/
theorem isPending_spent {s : Session σ} (hs : s.Consistent) (path : String) (v : Settlement) (timers : List Timer)
    (next : Element) :
    (s.bridge.spent path v timers next).registry.isPending (s.bridge.idOf s.bridge.registry.count) = false := by
  have hsound := hs.orderly.sound
  refine Bool.eq_false_iff.mpr fun hpending => ?_
  obtain ⟨n, hn, hid⟩ := hsound.isPending_iff_numbers.mp hpending
  obtain ⟨slot, hslot, rfl⟩ := List.mem_map.mp hn
  exact Nat.ne_of_lt (hsound.number_lt slot hslot) (Registry.idOf_inj.mp hid)

/-- A call that does not fail waits when it returns. -/
theorem isPending_call {s : Session σ} (hs : s.Consistent) {path : String} {args : Args} {timeout : Option Nat}
    (h : s.bridge.failure? (s.bridge.idOf s.bridge.registry.count) path args timeout = none) :
    (s.step (.call path args timeout)).2.isPending s.held.length = some true := by
  have hmoves := moves_call hs.orderly.sound path args timeout
  rw [callEvents, h] at hmoves
  have hnumbers : (s.bridge.call path args timeout).2.registry.numbers =
      s.bridge.registry.numbers ++ [s.bridge.registry.count] := congrArg Registry.Desk.waiting hmoves.desk_eq
  have hpending : (s.bridge.call path args timeout).2.registry.isPending
      ((s.bridge.call path args timeout).2.idOf s.bridge.registry.count) = true :=
    hmoves.sound.isPending_iff_numbers.mpr
      ⟨_, hnumbers ▸ List.mem_append_right _ (List.mem_singleton_self _), rfl⟩
  simp [step, isPending, hpending]

/-- **A call that is refused leaves all else as it was**: the requests that wait and what is found of them, the
scripts of the page and what they load, the host, fetches, pushes and timers. Its caller reads the error, and
its own timer, if it had one, has been stopped. No other call fails at once. -/
theorem call_refused {config : Config} {actual : Transport} {runtime withHead : Bool} {srcs : List String}
    {host : Host σ} {b : Bridge σ} (hb : Bridge.new config actual runtime (.withScripts withHead srcs) host = .ok b)
    {s : Session σ} (hs : Reached b s) (path : String) (args : Args) (timeout : Option Nat) :
    let id := s.bridge.idOf s.bridge.registry.count
    let after := (s.step (.call path args timeout)).2
    (after.isPending s.held.length = some false ↔ ∃ e, s.bridge.Refusal path args timeout e) ∧
      ∀ e, s.bridge.Refusal path args timeout e →
        s.AsBefore after ∧ (after.poll s.held.length).1 = .settled (.error e) ∧
          ∀ m t, after.bridge.timers[m]? = some t → t.id = id → ¬ after.bridge.Ticks m := by
  have hs := hs.consistent hb
  intro id after
  let own : Held := ⟨.call s.bridge.registry.count, true, none⟩
  -- whatever the reason is, the same is left
  have hspent : ∀ e, s.bridge.Refusal path args timeout e →
      ∃ timers next, after = ⟨s.bridge.spent path (.error e) timers next, s.held ++ [own]⟩ := by
    intro e he
    obtain ⟨timers, next, hcall⟩ := call_eq_spent hs.orderly he
    exact ⟨timers, next, congrArg (Session.mk · _) hcall⟩
  refine ⟨⟨fun hended => ?_, ?_⟩, fun e he => ?_⟩
  · cases hfailure : s.bridge.failure? id path args timeout with
    | none =>
      rw [isPending_call hs hfailure] at hended
      cases hended
    | some e => exact ⟨e, refusal_of_failure? hs.orderly hfailure⟩
  · rintro ⟨e, he⟩
    obtain ⟨timers, next, hafter⟩ := hspent e he
    rw [hafter]
    have hended := isPending_spent hs path (.error e) timers next
    simp only [isPending, List.getElem?_concat_length, Option.map_some]
    exact congrArg some hended
  · obtain ⟨timers, next, hafter⟩ := hspent e he
    rw [hafter]
    exact ⟨asBefore_spent hs path e timers next _, poll_spent hs path e timers next _ rfl,
      fun m t => not_ticks_spent hs path e timers next⟩

/-- A caller outside of the runtime is refused, while a call from inside waits on. -/
theorem call_refused_outside_runtime :
    let called := ((new shownBridge).change (.pageScript "own.js")).change (.operation (.call "/a" .none none))
    let s : Session Unit := { called with bridge := { called.bridge with runtime := false } }
    let after := (s.step (.call "/b" .none none)).2
    Bridge.new .scriptTag .scriptTag true (.withScripts false []) shownBridge.host = .ok shownBridge ∧
      Reached shownBridge s ∧ s.bridge.Refusal "/b" .none none .noRuntime ∧
      after.bridge.pendingCount = 1 ∧ after.bridge.page.scriptCount = 2 ∧
      (after.poll 1).1 = .settled (.error .noRuntime) :=
  have hb : Bridge.new .scriptTag .scriptTag true (.withScripts false []) shownBridge.host = .ok shownBridge := new_shown
  have hs := Reached.caller false (.change (.operation (.call "/a" .none none))
    (.change (.pageScript "own.js") (.new (b := shownBridge))))
  have hrefusal : Refusal _ "/b" .none none .noRuntime := .noRuntime rfl (.inl rfl) rfl
  have h := (call_refused hb hs "/b" .none none).2 _ hrefusal
  ⟨hb, hs, hrefusal, h.1.pendingCount, h.1.scriptCount, h.2.1⟩

end Session

end Hostlink.Bridge
